import AssassinGame.Foundation.Contention
import AssassinGame.Rooms.Draining

/-! # What players who come and go at once leave in the counter

Of a call that changes the counter only the read and the update matter to it. Seen so, a room
is a value that clients change by reading it and writing it back.
-/

namespace AssassinGame

open AssassinGame.Action Transition Contention

/-- The operation changes the counter of the room, opens no room and does not trap. -/
def Operation.Counts (room : Int) (operation : Operation) : Prop :=
  operation.room = room ∧ operation.change ≠ 0 ∧ operation.opened = none ∧
    operation.action.result = some ()

instance (room : Int) (operation : Operation) : Decidable (operation.Counts room) :=
  inferInstanceAs (Decidable (_ ∧ _ ∧ _ ∧ _))

theorem Operation.Counts.reads {operation : Operation} {room : Int}
    (counts : operation.Counts room) :
    ∃ request ∈ operation.action.requests, request.isRead = true := by
  rcases counts with ⟨_, changes, unopened, ends⟩
  cases operation with
  | addPlayer deviceID roomNumber player =>
      rcases registrable_iff.mp (addPlayer_result_eq_some.mp ends) with
        ⟨⟨playerRef, named⟩, ⟨device, rfl⟩, data, png⟩
      refine ⟨.getDocument (gameRef roomNumber) (.addPlayer (gameRef roomNumber)), ?_, rfl⟩
      rw [Operation.action, addPlayer_requests named png]
      simp
  | removePlayer roomNumber player =>
      cases named : document? (players roomNumber) player.name with
      | none =>
          have named' : document? (gameRef roomNumber ++ ["players"]) player.name = none := named
          simp [Operation.action, AssassinGame.removePlayer, gameRefOf_eq, bind_result,
            Action.document, named'] at ends
      | some playerRef =>
          refine ⟨.getDocument (gameRef roomNumber) (.removePlayer (gameRef roomNumber)), ?_, rfl⟩
          rw [Operation.action, removePlayer_requests named]
          simp
  | createRoom screen roomNumber date deviceID =>
      simp only [Operation.action, CreateGameVC.createNumberedRoom, bind_result,
        unwrap_result] at ends
      simp only [Operation.opened] at unopened
      cases counted : int? screen.numOfPlayers <;>
        cases pictured : screen.imageToUpload <;> simp_all
  | addGame | addKillshot | uploadKillshotPic | uploadKillshotName | imagePickerController =>
      exact absurd rfl changes

def Pending.origin (pending : Pending) : CallId × Operation :=
  (pending.call, pending.operation)

/-- How far the call has come to which this request is left. -/
def Pending.phase? (pending : Pending) : Option (Phase Int) :=
  match pending.request with
  | .getDocument _ _ => some .waiting
  | .write (.updateData _ data) => (data.int? "playerCount").map .holding
  | _ => none

/-- What an event does with the counter. -/
def Event.access? : Event → Option (Access (CallId × Operation))
  | .call _ _ => none
  | .perform pending _ =>
      if pending.request.isRead then some (.read pending.origin)
      else if pending.request.isUpdate then some (.write pending.origin)
      else none

namespace World

def left (world : World) (call : CallId × Operation) : List Pending :=
  world.outstanding.filter (·.origin = call)

def phase (world : World) (call : CallId × Operation) : Phase Int :=
  if call ∈ world.calls then ((world.left call).findSome? Pending.phase?).getD .done
  else .waiting

/-- The counter and the calls that change it. -/
def register (room : Int) (world : World) : Register (CallId × Operation) Int where
  value := (counter? room world.firestore).getD 0
  phase := world.phase

/-- Every call changes the counter of the room, which is there. -/
structure Contended (room : Int) (world : World) : Prop where
  orderly : world.Orderly
  counts : ∀ call ∈ world.calls, call.2.Counts room
  counted : (counter? room world.firestore).isSome = true

end World

def Contends (room : Int) (_ : World) : Event → Prop
  | .call _ operation => operation.Counts room
  | .perform _ _ => True

/-! ## The requests that matter -/

@[simp] theorem playerCount_countFields (count : Int) :
    (countFields count).int? "playerCount" = some count := Document.int?_fields_head _ _ _

theorem isChained_of_phase? {pending : Pending} {phase : Phase Int}
    (found : pending.phase? = some phase) : pending.request.isChained = true := by
  rcases pending with ⟨id, operation, request⟩
  cases request with
  | getDocument => rfl
  | putData => cases found
  | write write =>
      cases write with
      | updateData => rfl
      | setData | delete => cases found

theorem phase?_eq_none {pending : Pending} (loose : pending.request.isChained = false) :
    pending.phase? = none := by
  cases found : pending.phase? with
  | none => rfl
  | some phase =>
      rw [isChained_of_phase? found] at loose
      cases loose

theorem access?_cases (pending : Pending) (killerTarget : Option Player) :
    (pending.request.isRead = true ∧
      (Event.perform pending killerTarget).access? = some (.read pending.origin)) ∨
    (pending.request.isUpdate = true ∧
      (Event.perform pending killerTarget).access? = some (.write pending.origin)) ∨
    (pending.request.isChained = false ∧
      (Event.perform pending killerTarget).access? = none) := by
  cases read : pending.request.isRead with
  | true => exact .inl ⟨rfl, if_pos read⟩
  | false =>
      cases update : pending.request.isUpdate with
      | true => exact .inr (.inl ⟨rfl, by simp [Event.access?, read, update]⟩)
      | false => exact .inr (.inr (by simp [Event.access?, Request.isChained, read, update]))

theorem isRead_of_phase? {pending : Pending} (waits : pending.phase? = some .waiting) :
    pending.request.isRead = true := by
  rcases pending with ⟨id, operation, request⟩
  cases request with
  | getDocument => rfl
  | putData => cases waits
  | write write =>
      cases write with
      | setData | delete => cases waits
      | updateData path data =>
          rcases Option.map_eq_some_iff.mp waits with ⟨_, _, other⟩
          cases other

theorem isUpdate_of_phase? {pending : Pending} {value : Int}
    (holds : pending.phase? = some (.holding value)) : pending.request.isUpdate = true := by
  rcases pending with ⟨id, operation, request⟩
  cases request with
  | getDocument | putData => cases holds
  | write write =>
      cases write with
      | updateData => rfl
      | setData | delete => cases holds

theorem findSome?_of_erase [DecidableEq α] {find : α → Option β} {values : List α} {value : α}
    (member : value ∈ values) (others : ∀ other ∈ values.erase value, find other = none) :
    values.findSome? find = find value := by
  rcases List.exists_erase_eq member with ⟨front, back, _, rfl, taken⟩
  rw [taken] at others
  have before : front.findSome? find = none :=
    List.findSome?_eq_none_iff.mpr fun other inside => others other (List.mem_append_left _ inside)
  have after : back.findSome? find = none :=
    List.findSome?_eq_none_iff.mpr fun other inside => others other (List.mem_append_right _ inside)
  rw [List.findSome?_append, before, Option.none_or, List.findSome?_cons]
  cases found : find value with
  | none => exact after
  | some result => rfl

theorem findSome?_erase [DecidableEq α] {find : α → Option β} {value : α}
    (nothing : find value = none) (values : List α) :
    (values.erase value).findSome? find = values.findSome? find := by
  by_cases member : value ∈ values
  · rcases List.exists_erase_eq member with ⟨front, back, _, rfl, taken⟩
    rw [taken, List.findSome?_append, List.findSome?_append, List.findSome?_cons, nothing]
  · rw [List.erase_of_not_mem member]

namespace World

variable {world : World} {pending : Pending} {killerTarget : Option Player}

theorem mem_left {call : CallId × Operation} :
    pending ∈ world.left call ↔ pending ∈ world.outstanding ∧ pending.origin = call := by
  simp [left]

theorem origin_mem_calls (traced : world.Traced) (member : pending ∈ world.outstanding) :
    pending.origin ∈ world.calls := (traced pending (.inl member)).1

theorem left_perform_own (issued : Issued pending.operation pending.request)
    (world : World) (killerTarget : Option Player) :
    (world.perform pending killerTarget).left pending.origin =
      (world.left pending.origin).erase pending ++
        pending.followUps killerTarget world.firestore := by
  have all : (pending.followUps killerTarget world.firestore).filter
      (·.origin = pending.origin) = pending.followUps killerTarget world.firestore := by
    rw [List.filter_eq_self]
    intro other member
    rcases answered_of_mem_followUps issued member with ⟨sameCall, sameOperation, _⟩
    simp [Pending.origin, sameCall, sameOperation]
  simp only [left, perform, List.filter_append, List.erase_filter, all]

theorem left_perform_other {call : CallId × Operation}
    (issued : Issued pending.operation pending.request) (different : call ≠ pending.origin)
    (world : World) (killerTarget : Option Player) :
    (world.perform pending killerTarget).left call = world.left call := by
  have none' : (pending.followUps killerTarget world.firestore).filter
      (·.origin = call) = [] := by
    rw [List.filter_eq_nil_iff]
    intro other member
    rcases answered_of_mem_followUps issued member with ⟨sameCall, sameOperation, _⟩
    simpa [Pending.origin, sameCall, sameOperation] using different.symm
  have absent : pending ∉ world.outstanding.filter (·.origin = call) := by
    simp [Ne.symm different]
  simp only [left, perform, List.filter_append, none', List.append_nil]
  rw [← List.erase_filter, List.erase_of_not_mem absent]

theorem phase_perform_other {call : CallId × Operation}
    (issued : Issued pending.operation pending.request) (different : call ≠ pending.origin)
    (world : World) (killerTarget : Option Player) :
    (world.perform pending killerTarget).phase call = world.phase call := by
  rw [phase, phase, left_perform_other issued different]
  rfl

/-- The other requests of a call whose read or update is under way do not matter. -/
theorem Orderly.phase?_of_erase (orderly : world.Orderly) (member : pending ∈ world.outstanding)
    (chained : pending.request.isChained = true) :
    ∀ other ∈ (world.left pending.origin).erase pending, other.phase? = none := by
  intro other inside
  rw [left, List.erase_filter, List.mem_filter, decide_eq_true_eq] at inside
  exact phase?_eq_none (orderly.chain_unique member inside.1
    (congrArg Prod.fst inside.2) chained)

theorem Orderly.phase_of_mem (orderly : world.Orderly) (member : pending ∈ world.outstanding)
    (chained : pending.request.isChained = true) :
    world.phase pending.origin = pending.phase?.getD .done := by
  rw [phase, if_pos (origin_mem_calls orderly.traced member),
    findSome?_of_erase (mem_left.mpr ⟨member, rfl⟩) (orderly.phase?_of_erase member chained)]

theorem Orderly.phase_perform_own (orderly : world.Orderly)
    (member : pending ∈ world.outstanding) (chained : pending.request.isChained = true)
    (killerTarget : Option Player) :
    (world.perform pending killerTarget).phase pending.origin =
      ((pending.followUps killerTarget world.firestore).findSome? Pending.phase?).getD .done := by
  have called : pending.origin ∈ world.calls := origin_mem_calls orderly.traced member
  have nothing := List.findSome?_eq_none_iff.mpr (orderly.phase?_of_erase member chained)
  rw [phase, if_pos (show _ ∈ (world.perform pending killerTarget).calls from called),
    left_perform_own (orderly.traced.issued member), List.findSome?_append, nothing,
    Option.none_or]

theorem phase_perform_loose (issued : Issued pending.operation pending.request)
    (loose : pending.request.isChained = false) (world : World)
    (killerTarget : Option Player) :
    (world.perform pending killerTarget).phase = world.phase := by
  funext call
  by_cases own : call = pending.origin
  · subst own
    have notRead : pending.request.isRead = false := by
      rw [Request.isChained, Bool.or_eq_false_iff] at loose
      exact loose.1
    rw [phase, phase, left_perform_own issued, followUps_eq_nil notRead, List.append_nil,
      findSome?_erase (phase?_eq_none loose)]
    rfl
  · exact phase_perform_other issued own world killerTarget

/-! ## A room seen as a shared value -/

theorem register_value {room : Int} {count : Int}
    (counted : counter? room world.firestore = some count) :
    (world.register room).value = count := by
  rw [register, counted, Option.getD_some]

namespace Contended

variable {room : Int} {next : World}

theorem call_counts (contended : world.Contended room) (member : pending ∈ world.outstanding) :
    pending.operation.Counts room :=
  contended.counts _ (origin_mem_calls contended.orderly.traced member)

theorem followUps_eq (contended : world.Contended room) (member : pending ∈ world.outstanding)
    (read : pending.request.isRead = true) {count : Int}
    (counted : counter? room world.firestore = some count)
    (killerTarget : Option Player) :
    pending.followUps killerTarget world.firestore = [⟨pending.call, pending.operation,
      .write (.updateData (gameRef room) (countFields (count + pending.operation.change)))⟩] := by
  have issued := contended.orderly.traced.issued member
  rcases contended.call_counts member with ⟨rfl, changes, _⟩
  rcases pending with ⟨id, operation, request⟩
  rcases issued with asked | answered
  · change Asked operation request at asked
    cases asked with
    | reads completes =>
        rcases handle_cases completes with ⟨_, handles⟩ | ⟨unchanged, _⟩
        · rcases Option.bind_eq_some_iff.mp counted with ⟨document, found, shown⟩
          simp only [Pending.followUps, handles, found, handle_requests shown, List.map_cons,
            List.map_nil]
        · exact absurd unchanged changes
    | _ => cases read
  · rw [Answered.not_isRead answered] at read
    cases read

theorem read (contended : world.Contended room) (member : pending ∈ world.outstanding)
    (read : pending.request.isRead = true) (killerTarget : Option Player) :
    Contention.step (·.2.change) (world.register room) (.read pending.origin) =
      some ((world.perform pending killerTarget).register room) := by
  have chained : pending.request.isChained = true := by simp [Request.isChained, read]
  have issued := contended.orderly.traced.issued member
  rcases Option.isSome_iff_exists.mp contended.counted with ⟨count, counted⟩
  have same : (world.perform pending killerTarget).firestore = world.firestore := by
    rcases pending with ⟨id, operation, request⟩
    cases request with
    | getDocument => rfl
    | write | putData => cases read
  have before : (world.register room).phase pending.origin = .waiting := by
    refine (contended.orderly.phase_of_mem member chained).trans ?_
    rcases pending with ⟨id, operation, request⟩
    cases request with
    | getDocument => rfl
    | write | putData => cases read
  have after : (world.perform pending killerTarget).phase pending.origin =
      .holding (count + pending.operation.change) := by
    rw [contended.orderly.phase_perform_own member chained,
      contended.followUps_eq member read counted]
    simp [Pending.phase?]
  refine step_read.mpr ⟨before, ?_⟩
  rw [register, register, same, counted, Register.advance]
  refine congrArg (Register.mk count) (funext fun call => ?_)
  by_cases own : call = pending.origin
  · subst own
    rw [after, Function.update_self]
    rfl
  · rw [phase_perform_other issued own, Function.update_of_ne own]

theorem request_of_update (contended : world.Contended room)
    (member : pending ∈ world.outstanding) (update : pending.request.isUpdate = true) :
    ∃ count, pending.request = .write (.updateData (gameRef room) (countFields count)) := by
  have issued := contended.orderly.traced.issued member
  rcases contended.call_counts member with ⟨rfl, _⟩
  rcases pending with ⟨id, operation, request⟩
  rcases issued with asked | answered
  · rw [not_isUpdate_of_asked asked] at update
    cases update
  · change Answered operation request at answered
    cases answered with
    | counts count => exact ⟨count, rfl⟩
    | files => cases update

theorem update (contended : world.Contended room) (member : pending ∈ world.outstanding)
    (update : pending.request.isUpdate = true) (killerTarget : Option Player) :
    Contention.step (·.2.change) (world.register room) (.write pending.origin) =
      some ((world.perform pending killerTarget).register room) := by
  have chained : pending.request.isChained = true := by simp [Request.isChained, update]
  have issued := contended.orderly.traced.issued member
  rcases contended.request_of_update member update with ⟨count, shape⟩
  rcases Option.isSome_iff_exists.mp contended.counted with ⟨_, counted⟩
  rcases Option.bind_eq_some_iff.mp counted with ⟨document, found, _⟩
  have stored : counter? room (world.perform pending killerTarget).firestore = some count := by
    simp [counter?, perform, Pending.applyTo, shape, Write.lookup_updateData, found]
  have before : (world.register room).phase pending.origin = .holding count := by
    refine (contended.orderly.phase_of_mem member chained).trans ?_
    simp [Pending.phase?, shape]
  have after : (world.perform pending killerTarget).phase pending.origin = .done := by
    have notRead : pending.request.isRead = false := by simp [shape, Request.isRead]
    rw [contended.orderly.phase_perform_own member chained, followUps_eq_nil notRead]
    rfl
  refine step_write.mpr ⟨count, before, ?_⟩
  rw [register, stored, Register.put]
  refine congrArg (Register.mk count) (funext fun call => ?_)
  by_cases own : call = pending.origin
  · subst own
    rw [after, Register.advance_same]
  · rw [phase_perform_other issued own, Register.advance_other own]
    rfl

theorem loose (contended : world.Contended room) (member : pending ∈ world.outstanding)
    (loose : pending.request.isChained = false) (killerTarget : Option Player) :
    (world.perform pending killerTarget).register room = world.register room := by
  have issued := contended.orderly.traced.issued member
  have same : counter? room (world.perform pending killerTarget).firestore =
      counter? room world.firestore := by
    rcases gameDocument_cases issued room world.firestore with
      ⟨count, _, _, update, _⟩ | ⟨game, _, opened, _⟩ | ⟨_, same⟩
    · rw [update] at loose
      cases loose
    · rw [(contended.call_counts member).2.2.1] at opened
      cases opened
    · exact counter?_eq_of_lookup same
  rw [register, register, same, phase_perform_loose issued loose]

theorem issue (contended : world.Contended room) {id : CallId} {operation : Operation}
    (counts : operation.Counts room) (fresh : id ∉ world.calls.map Prod.fst) :
    (world.issue id operation).register room = world.register room := by
  refine congrArg (Register.mk _) (funext fun call => ?_)
  by_cases own : call = (id, operation)
  · subst own
    have absent : (id, operation) ∉ world.calls := fun member =>
      fresh (List.mem_map_of_mem (f := Prod.fst) member)
    rcases counts.reads with ⟨request, asked, read⟩
    have member : (⟨id, operation, request⟩ : Pending) ∈
        (world.issue id operation).outstanding :=
      mem_outstanding_issue.mpr (.inr ⟨rfl, rfl, asked⟩)
    have orderly : (world.issue id operation).Orderly :=
      contended.orderly.step (step_call.mpr ⟨fresh, rfl⟩)
    have chained : request.isChained = true := by simp [Request.isChained, read]
    have waits := orderly.phase_of_mem member chained
    have before : world.phase (id, operation) = .waiting := if_neg absent
    rw [before]
    refine waits.trans ?_
    cases request with
    | getDocument => rfl
    | write | putData => cases read
  · have others : (operation.action.requests.map (Pending.mk id operation)).filter
        (·.origin = call) = [] := by
      simp [List.filter_eq_nil_iff, Pending.origin, Ne.symm own]
    rw [phase, phase, left, World.issue, List.filter_append, others, List.append_nil]
    simp only [List.mem_cons, own, false_or, left]

theorem kept (contended : world.Contended room) {event : Event}
    (contends : Contends room world event) (stepped : world.step event = some next) :
    next.Contended room := by
  have orderly := contended.orderly.step stepped
  rcases step_cases stepped with
    ⟨id, operation, rfl, _, rfl⟩ | ⟨pending, killerTarget, rfl, ready, rfl⟩
  · exact ⟨orderly, List.forall_mem_cons.mpr ⟨contends, contended.counts⟩, contended.counted⟩
  · refine ⟨orderly, contended.counts, ?_⟩
    rcases gameDocument_cases (contended.orderly.traced.issued ready.1) room world.firestore with
      ⟨count, _, _, _, stored⟩ | ⟨game, _, opened, _⟩ | ⟨_, same⟩
    · rcases Option.isSome_iff_exists.mp contended.counted with ⟨_, counted⟩
      rcases Option.bind_eq_some_iff.mp counted with ⟨document, found, _⟩
      simp [World.perform, counter?, stored, found]
    · rw [(contended.call_counts ready.1).2.2.1] at opened
      cases opened
    · exact (congrArg Option.isSome (counter?_eq_of_lookup same)).trans contended.counted

end Contended

/-- A room is a value that its calls change by reading it and writing it back. -/
theorem refines_contention (room : Int) :
    Refinement World.step (Contends room)
      (Contention.step fun call : CallId × Operation => call.2.change) Event.access?
      (register room) (Contended room) where
  kept contended contends stepped := contended.kept contends stepped
  hidden contended contends stepped unseen := by
    rcases step_cases stepped with
      ⟨id, operation, rfl, fresh, rfl⟩ | ⟨pending, killerTarget, rfl, ready, rfl⟩
    · exact contended.issue contends fresh
    · rcases access?_cases pending killerTarget with
        ⟨_, seen⟩ | ⟨_, seen⟩ | ⟨loose, _⟩
      · cases seen.symm.trans unseen
      · cases seen.symm.trans unseen
      · exact contended.loose ready.1 loose killerTarget
  matched contended contends stepped seen := by
    rcases step_cases stepped with
      ⟨id, operation, rfl, fresh, rfl⟩ | ⟨pending, killerTarget, rfl, ready, rfl⟩
    · cases seen
    · rcases access?_cases pending killerTarget with
        ⟨read, shown⟩ | ⟨update, shown⟩ | ⟨_, hidden⟩
      · cases shown.symm.trans seen
        exact contended.read ready.1 read killerTarget
      · cases shown.symm.trans seen
        exact contended.update ready.1 update killerTarget
      · cases hidden.symm.trans seen

/-! ## Every run of the shared value is a run of the room -/

theorem meets_contends {room : Int} {final : World} {events : List Event}
    (counts : ∀ call ∈ final.calls, call.2.Counts room)
    (performed : run World.step world events = some final) :
    Meets World.step (Contends room) world events := by
  have permitted : ∀ event ∈ events, Contends room world event := by
    intro event member
    have recorded := (recorded_of_run performed).2.2 event member
    cases event with
    | call id operation => exact counts _ recorded
    | perform => trivial
  exact @meets_of_forall _ _ World.step (Contends room world) events permitted world

/-- The requests in the way of a read or an update can be performed first. -/
theorem Contended.exists_performs {room : Int} (contended : world.Contended room)
    (member : pending ∈ world.outstanding) (chained : pending.request.isChained = true) :
    ∃ events final, (∀ event ∈ events, event.performs = true) ∧
      run World.step world events = some final ∧ final.Contended room ∧
      events.filterMap Event.access? = (Event.perform pending none).access?.toList := by
  generalize bound : world.work = work
  induction work using Nat.strong_induction_on generalizing world with
  | _ work induction =>
      cases shape : world.queue pending.call with
      | nil => exact absurd (mem_queue.mpr ⟨member, rfl⟩) (by simp [shape])
      | cons first rest =>
          have ready := ready_head shape
          have stepped : world.step (.perform first none) = some (world.perform first none) :=
            step_perform.mpr ⟨ready, rfl⟩
          have kept : (world.perform first none).Contended room :=
            contended.kept (show Contends room world (.perform first none) from trivial) stepped
          by_cases same : first = pending
          · subst same
            refine ⟨[.perform first none], _, by simp [Event.performs],
              run_cons_eq_some.mpr ⟨_, stepped, rfl⟩, kept, ?_⟩
            cases shown : (Event.perform first none).access? with
            | none => rw [List.filterMap_cons_none shown]; rfl
            | some access => rw [List.filterMap_cons_some shown]; rfl
          · have own : first.call = pending.call :=
              (mem_queue.mp (shape ▸ List.mem_cons_self)).2
            have loose := contended.orderly.chain_unique member
              ((List.mem_erase_of_ne same).mpr ready.1) own chained
            have later : pending ∈ (world.perform first none).outstanding :=
              List.mem_append_left _ ((List.mem_erase_of_ne (Ne.symm same)).mpr member)
            have less := work_perform (contended.orderly.traced.issued ready.1) ready.1 none
            rcases induction _ (by omega) kept later rfl with
              ⟨events, final, performs, performed, ended, seen⟩
            refine ⟨.perform first none :: events, final,
              List.forall_mem_cons.mpr ⟨rfl, performs⟩,
              run_cons_eq_some.mpr ⟨_, stepped, performed⟩, ended, ?_⟩
            rcases access?_cases first none with ⟨read, _⟩ | ⟨update, _⟩ | ⟨_, hidden⟩
            · simp [Request.isChained, read] at loose
            · simp [Request.isChained, update] at loose
            · rw [List.filterMap_cons_none hidden, seen]

theorem exists_of_phase {call : CallId × Operation} {phase : Phase Int}
    (called : call ∈ world.calls) (reached : world.phase call = phase) (busy : phase ≠ .done) :
    ∃ pending ∈ world.outstanding, pending.origin = call ∧ pending.phase? = some phase := by
  rw [World.phase, if_pos called] at reached
  cases found : (world.left call).findSome? Pending.phase? with
  | none =>
      rw [found] at reached
      exact absurd reached.symm busy
  | some other =>
      rw [found, Option.getD_some] at reached
      subst reached
      rcases List.exists_of_findSome?_eq_some found with ⟨pending, member, shown⟩
      rcases mem_left.mp member with ⟨under, own⟩
      exact ⟨pending, under, own, shown⟩

/-- What the shared value can do next, a request under way does. -/
theorem Contended.exists_request {room : Int} {next : Register (CallId × Operation) Int}
    {access : Access (CallId × Operation)} (called : access.client ∈ world.calls)
    (stepped : Contention.step (·.2.change) (world.register room) access = some next) :
    ∃ pending ∈ world.outstanding, pending.request.isChained = true ∧
      (Event.perform pending none).access? = some access := by
  cases access with
  | read call =>
      rcases exists_of_phase called (step_read.mp stepped).1 nofun with
        ⟨pending, under, rfl, waits⟩
      exact ⟨pending, under, isChained_of_phase? waits, if_pos (isRead_of_phase? waits)⟩
  | write call =>
      rcases step_write.mp stepped with ⟨value, holds, _⟩
      rcases exists_of_phase called holds nofun with ⟨pending, under, rfl, held⟩
      have update := isUpdate_of_phase? held
      refine ⟨pending, under, isChained_of_phase? held, ?_⟩
      rcases access?_cases pending none with ⟨read, _⟩ | ⟨_, shown⟩ | ⟨loose, _⟩
      · rw [pending.request.not_isUpdate_of_isRead read] at update
        cases update
      · exact shown
      · rw [isChained_of_phase? held] at loose
        cases loose

theorem Contended.exists_accesses {room : Int} {last : Register (CallId × Operation) Int}
    (contended : world.Contended room) {accesses : List (Access (CallId × Operation))}
    (called : ∀ access ∈ accesses, access.client ∈ world.calls)
    (performed : run (Contention.step (·.2.change)) (world.register room) accesses = some last) :
    ∃ events final, (∀ event ∈ events, event.performs = true) ∧
      run World.step world events = some final ∧ final.Contended room ∧
      final.register room = last := by
  induction accesses generalizing world with
  | nil => exact ⟨[], world, by simp, rfl, contended, Option.some.inj performed⟩
  | cons access accesses induction =>
      rcases run_cons_eq_some.mp performed with ⟨next, stepped, rest⟩
      rcases List.forall_mem_cons.mp called with ⟨first, others⟩
      rcases exists_request first stepped with ⟨pending, under, chained, shown⟩
      rcases contended.exists_performs under chained with
        ⟨events, middle, performs, reached, kept, seen⟩
      have followed := (refines_contention room).run contended
        (meets_contends kept.counts reached) reached
      rw [seen, shown] at followed
      rcases run_cons_eq_some.mp followed with ⟨other, same, ended⟩
      cases stepped.symm.trans same
      cases ended
      rcases induction kept (calls_of_performs performs reached ▸ others) rest with
        ⟨later, final, continues, finished, lasts, value⟩
      refine ⟨events ++ later, final, ?_, run_append_of reached finished, lasts, value⟩
      intro event member
      exact (List.mem_append.mp member).elim (performs event) (continues event)

/-! ## The values that can be left -/

theorem register_start {room count : Int} {firestore : Firestore}
    (counted : counter? room firestore = some count) (storage : Storage) :
    (World.start firestore storage).register room = .start _ count := by
  rw [register, Register.start, World.start, counted]
  refine congrArg (Register.mk count) (funext fun call => ?_)
  exact if_neg List.not_mem_nil

theorem Contended.start {room count : Int} {firestore : Firestore}
    (counted : counter? room firestore = some count) (storage : Storage) :
    (World.start firestore storage).Contended room where
  orderly := .start firestore storage
  counts _ member := by cases member
  counted := Option.isSome_iff_exists.mpr ⟨count, counted⟩

theorem Contended.counter {room : Int} (contended : world.Contended room) :
    counter? room world.firestore = some (world.register room).value := by
  rcases Option.isSome_iff_exists.mp contended.counted with ⟨count, counted⟩
  rw [counted, register_value counted]

theorem Contended.run {room : Int} {final : World} {events : List Event}
    (contended : world.Contended room) (counts : ∀ call ∈ final.calls, call.2.Counts room)
    (performed : Transition.run World.step world events = some final) :
    final.Contended room ∧
      Transition.run (Contention.step (·.2.change)) (world.register room)
        (events.filterMap Event.access?) = some (final.register room) := by
  have meets := meets_contends counts performed
  refine ⟨?_, (refines_contention room).run contended meets performed⟩
  exact run_invariant (Contended room)
    (fun _ _ _ contended contends stepped => contended.kept contends stepped) contended meets
    performed

theorem client_mem_calls {final : World} {events : List Event}
    (traced : final.Traced) (performed : Transition.run World.step world events = some final) :
    ∀ access ∈ events.filterMap Event.access?, access.client ∈ final.calls := by
  intro access member
  rcases List.mem_filterMap.mp member with ⟨event, inside, shown⟩
  have recorded := (recorded_of_run performed).2.2 event inside
  cases event with
  | call => cases shown
  | perform pending killerTarget =>
      have called := (traced pending (.inr recorded)).1
      rcases access?_cases pending killerTarget with ⟨_, seen⟩ | ⟨_, seen⟩ | ⟨_, seen⟩ <;>
        cases seen.symm.trans shown <;> exact called

theorem phase_of_idle (idle : world.outstanding = []) (call : CallId × Operation) :
    world.phase call = .done ↔ call ∈ world.calls := by
  rw [phase, left, idle]
  split <;> simp_all

theorem exists_calls {calls : List (CallId × Operation)}
    (distinct : (calls.map Prod.fst).Nodup)
    (fresh : ∀ call ∈ calls, call.1 ∉ world.calls.map Prod.fst) :
    ∃ final, Transition.run World.step world (calls.map fun call => .call call.1 call.2) =
      some final ∧ final.calls = calls.reverse ++ world.calls := by
  induction calls generalizing world with
  | nil => exact ⟨world, rfl, rfl⟩
  | cons call calls induction =>
      rcases List.nodup_cons.mp distinct with ⟨outside, distinct⟩
      rcases List.forall_mem_cons.mp fresh with ⟨first, others⟩
      have stepped : world.step (.call call.1 call.2) = some (world.issue call.1 call.2) :=
        step_call.mpr ⟨first, rfl⟩
      have unused : ∀ other ∈ calls,
          other.1 ∉ (world.issue call.1 call.2).calls.map Prod.fst := by
        intro other member used
        rcases List.mem_cons.mp used with same | old
        · exact outside (same ▸ List.mem_map_of_mem member)
        · exact others other member old
      rcases induction distinct unused with ⟨final, performed, made⟩
      refine ⟨final, run_cons_eq_some.mpr ⟨_, stepped, performed⟩, ?_⟩
      rw [made, List.reverse_cons, List.append_assoc]
      rfl

end World

/-- Exactly these counts can be left in a room by calls that change its counter, whenever they
are made and however their requests interleave: the count before with the changes of some of
the calls, of at least one if there is one. -/
theorem counters_left_iff {room opened : Int} {firestore : Firestore} {storage : Storage}
    {calls : List (CallId × Operation)} (counted : counter? room firestore = some opened)
    (distinct : (calls.map Prod.fst).Nodup) (counts : ∀ call ∈ calls, call.2.Counts room)
    (count : Int) :
    (∃ events final, run World.step (World.start firestore storage) events = some final ∧
      final.calls.Perm calls ∧ final.outstanding = [] ∧
      counter? room final.firestore = some count) ↔
    ∃ chain, chain.Sublist calls ∧ (chain = [] → calls = []) ∧
      count = opened + (chain.map fun call => call.2.change).sum := by
  have contended := World.Contended.start counted storage
  have starts := World.register_start counted storage
  have left := @leaves_iff _ _ _ (fun call : CallId × Operation => call.2.change) opened _ calls
    distinct.of_map count
  constructor
  · rintro ⟨events, final, performed, perm, idle, shown⟩
    refine left.mp ?_
    rcases contended.run (fun call member => counts call (perm.mem_iff.mp member)) performed with
      ⟨ended, seen⟩
    rw [starts] at seen
    rcases writers_of_start seen with ⟨nodup, done⟩
    refine ⟨_, _, seen, fun access member => ?_, ?_, ?_⟩
    · exact perm.mem_iff.mp (World.client_mem_calls ended.orderly.traced performed access member)
    · rw [List.perm_ext_iff_of_nodup nodup distinct.of_map]
      intro call
      rw [done, ← perm.mem_iff]
      exact World.phase_of_idle idle call
    · rw [ended.counter, Option.some.injEq] at shown
      exact shown
  · intro chained
    rcases left.mpr chained with ⟨accesses, last, performed, clients, perm, rfl⟩
    rcases @World.exists_calls (World.start firestore storage) calls distinct
      (fun call _ used => List.not_mem_nil used) with ⟨made, calling, all⟩
    have madeOf : ∀ call, call ∈ made.calls ↔ call ∈ calls := by
      intro call
      simp [all, World.start]
    -- first all calls are made
    rcases contended.run (fun call member => counts call ((madeOf call).mp member)) calling with
      ⟨ready, unseen⟩
    have none' : (calls.map fun call => Event.call call.1 call.2).filterMap Event.access? = [] := by
      simp [List.filterMap_map, Function.comp_def, Event.access?]
    rw [none', starts] at unseen
    have same : made.register room = .start _ opened := (Option.some.inj unseen).symm
    -- then they read and write as the shared value says
    rcases ready.exists_accesses (fun access member => (madeOf _).mpr (clients access member))
      (same ▸ performed) with ⟨events, middle, performs, reached, kept, register⟩
    -- and then what is left is performed
    rcases World.exists_drained kept.orderly.traced none with
      ⟨rest, final, continues, ended, idle⟩
    have unchanged : final.calls = made.calls :=
      (World.calls_of_performs continues ended).trans (World.calls_of_performs performs reached)
    rcases kept.run (fun call member => counts call ((madeOf call).mp (unchanged ▸ member)))
      ended with ⟨lasts, followed⟩
    have nothing : rest.filterMap Event.access? = [] := by
      refine eq_nil_of_done (fun access member => ?_) followed
      have called := World.client_mem_calls lasts.orderly.traced ended access member
      rw [unchanged, madeOf, ← perm.mem_iff, (writers_of_start performed).2] at called
      exact (congrArg (Register.phase · _) register).trans called
    rw [nothing] at followed
    have settled : final.register room = last :=
      (Option.some.inj followed).symm.trans register
    refine ⟨_, final, run_append_of calling (run_append_of reached ended), ?_, idle, ?_⟩
    · rw [unchanged, all]
      exact (List.append_nil _).symm ▸ List.reverse_perm calls
    · rw [lasts.counter, settled]

def openedForThree : Firestore :=
  (∅ : Firestore).insert (gameRef 7) (gameFields (Game.init 7 3 "noon"))

/-- Two players join and one leaves; what is left may show only one of them. -/
theorem counters_left_iff_oneOfThree :
    ∃ events final, run World.step (World.start openedForThree ∅) events = some final ∧
      final.calls.Perm [(0, join 7 "ann"), (1, join 7 "bob"),
        (2, .removePlayer 7 (Player.init "ann" someImage))] ∧ final.outstanding = [] ∧
      counter? 7 final.firestore = some 4 :=
  (@counters_left_iff 7 3 openedForThree ∅ _ (by decide) (by decide) (by decide) 4).mpr
    ⟨[(2, .removePlayer 7 (Player.init "ann" someImage))], by decide, by decide, by decide⟩

/-! ## When the counter shows every player who has joined -/

/-- A write of the counter finds the value that its call has read. -/
def FindsRead (room : Int) (world : World) : Event → Prop
  | .call _ _ => True
  | .perform pending _ =>
      match pending.request with
      | .write (.updateData _ data) => counter? room world.firestore =
          (data.int? "playerCount").map (· - pending.operation.change)
      | _ => True

theorem findsRead_of_not_update {room : Int} {world : World} {pending : Pending}
    {killerTarget : Option Player} (other : pending.request.isUpdate = false) :
    FindsRead room world (.perform pending killerTarget) := by
  rcases pending with ⟨id, operation, request⟩
  cases request with
  | getDocument | putData => trivial
  | write write =>
      cases write with
      | updateData => cases other
      | setData | delete => trivial

namespace World

variable {world : World}

theorem Contended.findsRead_iff {room : Int} (contended : world.Contended room)
    {pending : Pending} (member : pending ∈ world.outstanding)
    (update : pending.request.isUpdate = true) (killerTarget : Option Player) :
    FindsRead room world (.perform pending killerTarget) ↔
      Fresh (·.2.change) (world.register room) (.write pending.origin) := by
  have chained : pending.request.isChained = true := by simp [Request.isChained, update]
  have reached : (world.register room).phase pending.origin = _ :=
    contended.orderly.phase_of_mem member chained
  rcases contended.request_of_update member update with ⟨count, shape⟩
  rw [Fresh, reached, FindsRead, contended.counter]
  simp only [Pending.phase?, shape, playerCount_countFields, Option.map_some, Option.getD_some,
    Option.some.injEq, Phase.holding.injEq, Pending.origin]
  omega

theorem Contended.updates_eq {room : Int} {final : World} {events : List Event}
    (contended : world.Contended room) (counts : ∀ call ∈ final.calls, call.2.Counts room)
    (performed : Transition.run World.step world events = some final) :
    final.updates room =
      world.updates room + (writers (events.filterMap Event.access?)).length := by
  induction events generalizing world with
  | nil =>
      cases performed
      rfl
  | cons event events induction =>
      rcases run_cons_eq_some.mp performed with ⟨next, stepped, rest⟩
      have meets := (meets_contends counts performed).head
      have continued := induction (contended.kept meets stepped) rest
      rcases step_cases stepped with
        ⟨id, operation, rfl, _, rfl⟩ | ⟨pending, killerTarget, rfl, ready, rfl⟩
      · exact continued
      · rw [continued, updates_perform]
        have notUpdate : pending.request.isUpdate = false →
            pending.updatesCounter room = false := fun other => by
          by_contra counts
          rw [Pending.isUpdate_of_updatesCounter (by simpa using counts)] at other
          cases other
        rcases access?_cases pending killerTarget with
          ⟨read, seen⟩ | ⟨update, seen⟩ | ⟨loose, seen⟩
        · rw [List.filterMap_cons_some seen, writers_cons_read,
            notUpdate (pending.request.not_isUpdate_of_isRead read)]
          rfl
        · rcases contended.request_of_update ready.1 update with ⟨count, shape⟩
          have counts : pending.updatesCounter room = true := by
            simp [Pending.updatesCounter, shape]
          rw [List.filterMap_cons_some seen, writers_cons_write, if_pos counts,
            List.length_cons, Nat.add_assoc, Nat.add_comm 1]
        · rw [Request.isChained, Bool.or_eq_false_iff] at loose
          rw [List.filterMap_cons_none seen, notUpdate loose.2]
          rfl

end World

/-- When players only join, the counter goes on to show all joins written so far if and only
if each write of it finds the value that its call has read. -/
theorem joins_shown_iff {room opened : Int} {firestore : Firestore} {storage : Storage}
    {events : List Event} {final : World} (counted : counter? room firestore = some opened)
    (joining : ∀ call ∈ final.calls, call.2.Counts room ∧ call.2.change = -1)
    (performed : run World.step (World.start firestore storage) events = some final) :
    counter? room final.firestore = some (opened - final.updates room) ↔
      Meets World.step (FindsRead room) (World.start firestore storage) events := by
  have contended := World.Contended.start counted storage
  have counts := fun call member => (joining call member).1
  rcases contended.run counts performed with ⟨ended, seen⟩
  rw [World.register_start counted storage] at seen
  -- everybody who writes the counter lowers it by one
  have lowers : ∀ call ∈ writers (events.filterMap Event.access?), call.2.change = -1 := by
    intro call member
    have accessed := mem_writers.mp member
    exact (joining call
      (World.client_mem_calls ended.orderly.traced performed _ accessed)).2
  have total : Contention.total (fun call : CallId × Operation => call.2.change)
      (writers (events.filterMap Event.access?)) = -(final.updates room : Int) := by
    rw [Contention.total, List.map_congr_left lowers, contended.updates_eq counts performed]
    simp [World.updates, World.start]
  have shows := (Bounded.start (fun call : CallId × Operation => call.2.change)
    opened).shows_iff (fun call member => by rw [lowers call member]; decide) seen
  rw [ended.counter, Option.some.injEq, Int.sub_eq_add_neg, ← total, shows,
    and_iff_right (show (Register.start _ opened).value = opened from rfl),
    ← World.register_start counted storage]
  refine (Refinement.meets_iff (World.refines_contention room) ?_ ?_ contended
    (World.meets_contends counts performed) performed).symm
  · intro world event unseen
    cases event with
    | call => trivial
    | perform pending killerTarget =>
        rcases access?_cases pending killerTarget with ⟨_, seen⟩ | ⟨_, seen⟩ | ⟨loose, _⟩
        · cases seen.symm.trans unseen
        · cases seen.symm.trans unseen
        · rw [Request.isChained, Bool.or_eq_false_iff] at loose
          exact findsRead_of_not_update loose.2
  · intro world next event access contended contends stepped sight
    rcases World.step_cases stepped with
      ⟨id, operation, rfl, _, rfl⟩ | ⟨pending, killerTarget, rfl, ready, rfl⟩
    · cases sight
    · rcases access?_cases pending killerTarget with ⟨read, seen⟩ | ⟨update, seen⟩ | ⟨_, seen⟩
      · cases seen.symm.trans sight
        exact iff_of_true (findsRead_of_not_update
          (pending.request.not_isUpdate_of_isRead read)) trivial
      · cases seen.symm.trans sight
        exact contended.findsRead_iff ready.1 update killerTarget
      · cases seen.symm.trans sight

def joinInTurn : List Event :=
  (World.start openedForThree ∅).follow [
    .call 0 (join 7 "ann"), .call 1 (join 7 "bob"),
    .answer 3, .answer 3, .answer 0, .answer 0, .answer 4, .answer 1, .answer 2, .answer 2,
    .answer 0, .answer 0]

theorem joins_shown_iff_joinInTurn :
    ∃ final, run World.step (World.start openedForThree ∅) joinInTurn = some final ∧
      (counter? 7 final.firestore = some ((3 : Int) - final.updates 7) ↔
        Meets World.step (FindsRead 7) (World.start openedForThree ∅) joinInTurn) := by
  have ends : (run World.step (World.start openedForThree ∅) joinInTurn).any (fun final =>
      ∀ call ∈ final.calls, call.2.Counts 7 ∧ call.2.change = -1) = true := by decide
  rcases run_ends ends with ⟨final, performed, joining⟩
  exact ⟨final, performed, joins_shown_iff (by decide) joining performed⟩

end AssassinGame
