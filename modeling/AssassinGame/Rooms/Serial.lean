import AssassinGame.Foundation.Interchange
import AssassinGame.Rooms.Draining

/-! # Calls that could have been made one after the other

Requests of different calls that do not touch the same document or picture may change
places. If the calls can be numbered so that conflicting requests are performed in the order
of the numbers, then making the calls one at a time in that order leaves the same documents
and pictures.
-/

namespace AssassinGame

open AssassinGame.Action Transition

/-! ## Conflicts -/

/-- Two requests conflict when one of them writes what the other reads or writes. -/
def Request.Conflicts : Request → Request → Prop
  | .write first, .write second => first.path = second.path
  | .write first, .getDocument path _ => first.path = path
  | .getDocument path _, .write second => second.path = path
  | .putData first _, .putData second _ => first = second
  | _, _ => False

instance : ∀ first second : Request, Decidable (first.Conflicts second)
  | .write first, .write second => inferInstanceAs (Decidable (first.path = second.path))
  | .write first, .getDocument path _ => inferInstanceAs (Decidable (first.path = path))
  | .write _, .putData _ _ => isFalse id
  | .getDocument path _, .write second => inferInstanceAs (Decidable (second.path = path))
  | .getDocument _ _, .getDocument _ _ => isFalse id
  | .getDocument _ _, .putData _ _ => isFalse id
  | .putData _ _, .write _ => isFalse id
  | .putData _ _, .getDocument _ _ => isFalse id
  | .putData first _, .putData second _ => inferInstanceAs (Decidable (first = second))

namespace Event

def caller : Event → CallId
  | .call id _ => id
  | .perform pending _ => pending.call

def Conflicts : Event → Event → Prop
  | .perform first _, .perform second _ => first.request.Conflicts second.request
  | _, _ => False

instance : ∀ first second : Event, Decidable (first.Conflicts second)
  | .perform first _, .perform second _ =>
      inferInstanceAs (Decidable (first.request.Conflicts second.request))
  | .call _ _, _ => isFalse (by simp [Conflicts])
  | .perform _ _, .call _ _ => isFalse id

def Independent (first second : Event) : Prop :=
  first.caller ≠ second.caller ∧ ¬first.Conflicts second

end Event

/-! ## Worlds that go on alike -/

/-- The same documents and pictures, the same calls made and requests performed, and for each
call the same requests under way. -/
structure World.Alike (left right : World) : Prop where
  documents : ∀ path, left.firestore.lookup path = right.firestore.lookup path
  pictures : ∀ path, left.storage.lookup path = right.storage.lookup path
  calls : left.calls.Perm right.calls
  queues : ∀ id, left.queue id = right.queue id
  performed : left.performed.Perm right.performed

theorem followUps_congr_of_lookup (pending : Pending) (killerTarget : Option Player)
    {left right : Firestore}
    (same : ∀ path completion, pending.request = .getDocument path completion →
      left.lookup path = right.lookup path) :
    pending.followUps killerTarget left = pending.followUps killerTarget right := by
  rcases pending with ⟨id, operation, request⟩
  cases request with
  | getDocument path completion =>
      simp only [Pending.followUps, same path completion rfl]
  | write | putData => rfl

theorem lookup_applyTo_swap {first second : Pending}
    (free : ¬first.request.Conflicts second.request) (store : Firestore)
    (path : ResourcePath) :
    (second.applyTo (first.applyTo store)).lookup path =
      (first.applyTo (second.applyTo store)).lookup path := by
  rcases first with ⟨firstCall, firstOperation, firstRequest⟩
  rcases second with ⟨secondCall, secondOperation, secondRequest⟩
  cases firstRequest with
  | getDocument | putData => rfl
  | write first =>
      cases secondRequest with
      | getDocument | putData => rfl
      | write second =>
          have apart : first.path ≠ second.path := free
          change (second.apply (first.apply store)).lookup path =
            (first.apply (second.apply store)).lookup path
          by_cases own : path = first.path
          · subst own
            rw [Write.lookup_apply_of_ne apart]
            exact first.lookup_apply_congr (Write.lookup_apply_of_ne apart store).symm
          · rw [Write.lookup_apply_of_ne own]
            exact second.lookup_apply_congr (Write.lookup_apply_of_ne own store)

theorem lookup_uploadTo_swap {first second : Pending}
    (free : ¬first.request.Conflicts second.request) (storage : Storage)
    (path : StoragePath) :
    (second.uploadTo (first.uploadTo storage)).lookup path =
      (first.uploadTo (second.uploadTo storage)).lookup path := by
  rcases first with ⟨firstCall, firstOperation, firstRequest⟩
  rcases second with ⟨secondCall, secondOperation, secondRequest⟩
  cases firstRequest with
  | getDocument | write => rfl
  | putData firstPath firstData =>
      cases secondRequest with
      | getDocument | write => rfl
      | putData secondPath secondData =>
          have apart : firstPath ≠ secondPath := free
          change ((storage.insert firstPath firstData).insert secondPath secondData).lookup path =
            ((storage.insert secondPath secondData).insert firstPath firstData).lookup path
          by_cases own : path = firstPath
          · subst own
            rw [AList.lookup_insert_ne apart, AList.lookup_insert, AList.lookup_insert]
          · rw [AList.lookup_insert_ne own]
            by_cases other : path = secondPath
            · subst other
              rw [AList.lookup_insert, AList.lookup_insert]
            · rw [AList.lookup_insert_ne other, AList.lookup_insert_ne other,
                AList.lookup_insert_ne own]

theorem followUps_applyTo {reader writer : Pending}
    (free : ¬reader.request.Conflicts writer.request) (killerTarget : Option Player)
    (store : Firestore) :
    reader.followUps killerTarget (writer.applyTo store) =
      reader.followUps killerTarget store := by
  apply followUps_congr_of_lookup
  intro path completion reads
  rcases writer with ⟨id, operation, request⟩
  cases request with
  | getDocument | putData => rfl
  | write write =>
      apply Write.lookup_apply_of_ne
      rintro rfl
      rw [reads] at free
      exact free rfl

theorem Request.Conflicts.symm {first second : Request} (conflict : first.Conflicts second) :
    second.Conflicts first := by
  cases first <;> cases second <;> first | exact conflict | exact Eq.symm conflict

namespace World.Alike

variable {left right next : World} {event : Event}

theorem refl (world : World) : world.Alike world :=
  ⟨fun _ => rfl, fun _ => rfl, .refl _, fun _ => rfl, .refl _⟩

theorem trans {first second third : World} (near : first.Alike second)
    (far : second.Alike third) : first.Alike third where
  documents path := (near.documents path).trans (far.documents path)
  pictures path := (near.pictures path).trans (far.pictures path)
  calls := near.calls.trans far.calls
  queues id := (near.queues id).trans (far.queues id)
  performed := near.performed.trans far.performed

theorem issue (alike : left.Alike right) (id : CallId) (operation : Operation) :
    (left.issue id operation).Alike (right.issue id operation) where
  documents := alike.documents
  pictures := alike.pictures
  calls := alike.calls.cons _
  queues other := by
    by_cases own : other = id
    · subst own
      rw [queue_issue_own, queue_issue_own, alike.queues]
    · rw [queue_issue_other own, queue_issue_other own, alike.queues]
  performed := alike.performed

theorem perform (alike : left.Alike right) (pending : Pending)
    (killerTarget : Option Player) :
    (left.perform pending killerTarget).Alike (right.perform pending killerTarget) where
  documents path := pending.lookup_applyTo_congr (alike.documents path)
  pictures path := pending.lookup_uploadTo_congr (alike.pictures path)
  calls := alike.calls
  queues id := by
    by_cases own : id = pending.call
    · subst own
      rw [queue_perform_own, queue_perform_own, alike.queues]
      rw [followUps_congr_of_lookup pending killerTarget fun path _ _ => alike.documents path]
    · rw [queue_perform_other own, queue_perform_other own, alike.queues]
  performed := alike.performed.cons _

theorem ready (alike : left.Alike right) {pending : Pending} (ready : left.Ready pending) :
    right.Ready pending := by
  rw [ready_iff_queue] at ready ⊢
  rwa [← alike.queues]

theorem matched (alike : left.Alike right) (stepped : left.step event = some next) :
    ∃ other, right.step event = some other ∧ next.Alike other := by
  rcases step_cases stepped with
    ⟨id, operation, rfl, fresh, rfl⟩ | ⟨pending, killerTarget, rfl, ready, rfl⟩
  · refine ⟨_, step_call.mpr ⟨?_, rfl⟩, alike.issue id operation⟩
    rwa [← (alike.calls.map Prod.fst).mem_iff]
  · exact ⟨_, step_perform.mpr ⟨alike.ready ready, rfl⟩, alike.perform pending killerTarget⟩

theorem idle (alike : left.Alike right) (idle : left.outstanding = []) :
    right.outstanding = [] := by
  by_contra busy
  rcases List.exists_mem_of_ne_nil _ busy with ⟨pending, member⟩
  have inside : pending ∈ left.queue pending.call :=
    alike.queues pending.call ▸ mem_queue.mpr ⟨member, rfl⟩
  rw [queue, idle] at inside
  cases inside

end World.Alike

/-! ## Changing places -/

namespace World

variable {world middle final : World}

theorem ready_of_issue {id : CallId} {operation : Operation} {pending : Pending}
    (other : pending.call ≠ id) :
    (world.issue id operation).Ready pending ↔ world.Ready pending := by
  rw [ready_iff_queue, ready_iff_queue, queue_issue_other other]

theorem ready_of_perform {pending done : Pending} {killerTarget : Option Player}
    (other : pending.call ≠ done.call) :
    (world.perform done killerTarget).Ready pending ↔ world.Ready pending := by
  rw [ready_iff_queue, ready_iff_queue, queue_perform_other other]

theorem alike_calls {first second : CallId} (apart : first ≠ second) (world : World)
    (operation other : Operation) :
    ((world.issue first operation).issue second other).Alike
      ((world.issue second other).issue first operation) where
  documents _ := rfl
  pictures _ := rfl
  calls := .swap _ _ _
  queues id := by
    by_cases own : id = first
    · subst own
      rw [queue_issue_other apart, queue_issue_own, queue_issue_own, queue_issue_other apart]
    · rw [queue_issue_other own]
      by_cases own' : id = second
      · subst own'
        rw [queue_issue_own, queue_issue_own, queue_issue_other own]
      · rw [queue_issue_other own', queue_issue_other own, queue_issue_other own']
  performed := .refl _

theorem alike_call_perform {id : CallId} {pending : Pending} (apart : pending.call ≠ id)
    (world : World) (operation : Operation) (killerTarget : Option Player) :
    ((world.issue id operation).perform pending killerTarget).Alike
      ((world.perform pending killerTarget).issue id operation) where
  documents _ := rfl
  pictures _ := rfl
  calls := .refl _
  queues other := by
    by_cases own : other = pending.call
    · subst own
      rw [queue_perform_own, queue_issue_other apart, queue_issue_other apart,
        queue_perform_own]
      rfl
    · rw [queue_perform_other own]
      by_cases own' : other = id
      · subst own'
        rw [queue_issue_own, queue_issue_own, queue_perform_other own]
      · rw [queue_issue_other own', queue_issue_other own', queue_perform_other own]
  performed := .refl _

theorem alike_performs {first second : Pending} (apart : first.call ≠ second.call)
    (free : ¬first.request.Conflicts second.request) (world : World)
    (firstTarget secondTarget : Option Player) :
    ((world.perform first firstTarget).perform second secondTarget).Alike
      ((world.perform second secondTarget).perform first firstTarget) where
  documents := lookup_applyTo_swap free world.firestore
  pictures := lookup_uploadTo_swap free world.storage
  calls := .refl _
  queues id := by
    have other : ¬second.request.Conflicts first.request := fun conflict => free conflict.symm
    by_cases own : id = first.call
    · subst own
      rw [queue_perform_other apart, queue_perform_own, queue_perform_own,
        queue_perform_other apart]
      exact congrArg _ (followUps_applyTo free firstTarget world.firestore).symm
    · rw [queue_perform_other own (world.perform second secondTarget)]
      by_cases own' : id = second.call
      · subst own'
        rw [queue_perform_own, queue_perform_own, queue_perform_other own]
        exact congrArg _ (followUps_applyTo other secondTarget world.firestore)
      · rw [queue_perform_other own', queue_perform_other own, queue_perform_other own']
  performed := .swap _ _ _

theorem swap {first second : Event} (free : first.Independent second)
    (stepped : world.step first = some middle) (followed : middle.step second = some final) :
    ∃ other last, world.step second = some other ∧ other.step first = some last ∧
      final.Alike last := by
  rcases free with ⟨apart, free⟩
  rcases step_cases stepped with
    ⟨id, operation, rfl, fresh, rfl⟩ | ⟨pending, killerTarget, rfl, ready, rfl⟩ <;>
    rcases step_cases followed with
      ⟨otherId, other, rfl, otherFresh, rfl⟩ | ⟨done, doneTarget, rfl, doneReady, rfl⟩
  · change id ≠ otherId at apart
    simp only [issue, List.map_cons, List.mem_cons, not_or] at otherFresh
    refine ⟨_, _, step_call.mpr ⟨otherFresh.2, rfl⟩, step_call.mpr ⟨?_, rfl⟩,
      alike_calls apart world operation other⟩
    simp only [issue, List.map_cons, List.mem_cons, not_or]
    exact ⟨apart, fresh⟩
  · change id ≠ done.call at apart
    exact ⟨_, _, step_perform.mpr ⟨(ready_of_issue apart.symm).mp doneReady, rfl⟩,
      step_call.mpr ⟨fresh, rfl⟩, alike_call_perform apart.symm world operation doneTarget⟩
  · change pending.call ≠ otherId at apart
    have same := alike_call_perform apart world other killerTarget
    refine ⟨_, _, step_call.mpr ⟨otherFresh, rfl⟩,
      step_perform.mpr ⟨(ready_of_issue apart).mpr ready, rfl⟩, ?_⟩
    exact ⟨fun path => (same.documents path).symm, fun path => (same.pictures path).symm,
      same.calls.symm, fun id => (same.queues id).symm, same.performed.symm⟩
  · change pending.call ≠ done.call at apart
    exact ⟨_, _, step_perform.mpr ⟨(ready_of_perform apart.symm).mp doneReady, rfl⟩,
      step_perform.mpr ⟨(ready_of_perform apart).mpr ready, rfl⟩,
      alike_performs apart free world killerTarget doneTarget⟩

theorem interchange : Interchange World.step World.Alike Event.Independent where
  refl := Alike.refl
  trans := Alike.trans
  matched := Alike.matched
  swap := swap

end World

/-! ## One call at a time -/

/-- Calls are made only while nothing is under way. -/
def World.InTurn (world : World) : Event → Prop
  | .call _ _ => world.outstanding = []
  | .perform _ _ => True

instance (world : World) : ∀ event, Decidable (world.InTurn event)
  | .call _ _ => inferInstanceAs (Decidable (_ = _))
  | .perform _ _ => inferInstanceAs (Decidable True)

theorem World.exists_caller {world final : World} {events : List Event} {pending : Pending}
    (member : pending ∈ world.outstanding) (gone : pending ∉ final.outstanding)
    (performed : run World.step world events = some final) :
    ∃ event ∈ events, event.caller = pending.call := by
  induction events generalizing world with
  | nil =>
      cases performed
      exact absurd member gone
  | cons event events induction =>
      rcases run_cons_eq_some.mp performed with ⟨next, stepped, rest⟩
      by_cases stays : pending ∈ next.outstanding
      · rcases induction stays rest with ⟨later, inside, same⟩
        exact ⟨later, List.mem_cons_of_mem _ inside, same⟩
      · refine ⟨event, List.mem_cons_self, ?_⟩
        rcases step_cases stepped with
          ⟨id, operation, rfl, _, rfl⟩ | ⟨done, killerTarget, rfl, _, rfl⟩
        · exact absurd (mem_outstanding_issue.mpr (.inl member)) stays
        · by_contra other
          have different : pending ≠ done := fun same => other (same ▸ rfl)
          refine stays (List.mem_append_left _ ?_)
          exact (List.mem_erase_of_ne different).mpr member

theorem World.inTurn_of_sorted {order : CallId → Nat} (injective : Function.Injective order)
    {world final : World} {events : List Event} (traced : world.Traced)
    (ordered : events.Pairwise fun earlier later =>
      order earlier.caller ≤ order later.caller)
    (first : ∀ pending ∈ world.outstanding, ∀ event ∈ events,
      order pending.call ≤ order event.caller)
    (performed : run World.step world events = some final)
    (done : final.outstanding = []) : Meets World.step World.InTurn world events := by
  induction events generalizing world with
  | nil => trivial
  | cons event events induction =>
      rcases List.pairwise_cons.mp ordered with ⟨least, rest⟩
      rcases run_cons_eq_some.mp performed with ⟨next, stepped, remaining⟩
      have followed : ∀ pending ∈ next.outstanding, ∀ later ∈ events,
          order pending.call ≤ order later.caller := by
        intro pending member later inside
        rcases step_cases stepped with
          ⟨id, operation, rfl, _, rfl⟩ | ⟨doing, killerTarget, rfl, _, rfl⟩
        · rcases mem_outstanding_issue.mp member with old | ⟨own, _⟩
          · exact first pending old later (List.mem_cons_of_mem _ inside)
          · exact own ▸ least later inside
        · rcases mem_outstanding_perform member with old | new
          · exact first pending old later (List.mem_cons_of_mem _ inside)
          · exact call_of_mem_followUps new ▸ least later inside
      rw [meets_cons stepped]
      refine ⟨?_, induction (traced.step stepped) rest followed remaining⟩
      cases event with
      | perform => trivial
      | call id operation =>
          change world.outstanding = []
          by_contra busy
          rcases List.exists_mem_of_ne_nil _ busy with ⟨pending, member⟩
          have gone : pending ∉ final.outstanding := by simp [done]
          rcases exists_caller member gone performed with ⟨later, inside, own⟩
          -- the request belongs to a call at least as late as this one, and so to this one
          have before := first pending member _ List.mem_cons_self
          have after : order id ≤ order later.caller := by
            rcases List.mem_cons.mp inside with rfl | inside
            · exact Nat.le_refl _
            · exact least later inside
          have same : pending.call = id :=
            injective (Nat.le_antisymm before (own ▸ after))
          rcases step_call.mp stepped with ⟨fresh, _⟩
          exact fresh (same ▸ List.mem_map_of_mem (f := Prod.fst)
            (traced pending (.inl member)).1)

def inOrder (order : CallId → Nat) (events : List Event) : List Event :=
  Interchange.sorted (fun event => order event.caller) events

/-- Conflicting requests are performed in the order of their calls. -/
def Agrees (order : CallId → Nat) (events : List Event) : Prop :=
  events.Pairwise fun earlier later =>
    earlier.Conflicts later → order earlier.caller ≤ order later.caller

instance (order : CallId → Nat) (events : List Event) : Decidable (Agrees order events) :=
  inferInstanceAs (Decidable (List.Pairwise _ _))

/-- The sorted events are a run too, in which the calls are made in turn. -/
theorem World.exists_in_turn {firestore : Firestore} {storage : Storage} {final : World}
    {events : List Event} {order : CallId → Nat} (injective : Function.Injective order)
    (agrees : Agrees order events)
    (performed : run World.step (World.start firestore storage) events = some final)
    (done : final.outstanding = []) :
    ∃ last, run World.step (World.start firestore storage) (inOrder order events) = some last ∧
      Meets World.step World.InTurn (World.start firestore storage) (inOrder order events) ∧
      final.Alike last := by
  have apart : events.Pairwise fun earlier later =>
      order later.caller < order earlier.caller → earlier.Independent later := by
    refine agrees.imp fun {earlier later} agrees out => ⟨?_, fun conflict => ?_⟩
    · intro same
      rw [same] at out
      exact Nat.lt_irrefl _ out
    · exact Nat.not_le_of_lt out (agrees conflict)
  rcases World.interchange.run_sorted (fun event => order event.caller) apart performed with
    ⟨last, sorted, alike⟩
  refine ⟨last, sorted, ?_, alike⟩
  exact World.inTurn_of_sorted injective (World.traced_start firestore storage)
    (Interchange.pairwise_sorted _ events)
    (fun pending member => absurd member List.not_mem_nil) sorted (alike.idle done)

/-- If the calls of a run can be numbered so that conflicting requests are performed in the
order of the numbers, then the same events, with each call made and done before the next one
in that order, are a run that leaves the same documents and pictures. -/
theorem runs_in_turn {firestore : Firestore} {storage : Storage} {final : World}
    {events : List Event} {order : CallId → Nat} (injective : Function.Injective order)
    (agrees : Agrees order events)
    (performed : run World.step (World.start firestore storage) events = some final)
    (done : final.outstanding = []) :
    ∃ serial last, serial.Perm events ∧
      (serial.Pairwise fun earlier later => order earlier.caller ≤ order later.caller) ∧
      Meets World.step World.InTurn (World.start firestore storage) serial ∧
      run World.step (World.start firestore storage) serial = some last ∧
      (∀ path, final.firestore.lookup path = last.firestore.lookup path) ∧
      ∀ path, final.storage.lookup path = last.storage.lookup path := by
  rcases World.exists_in_turn injective agrees performed done with
    ⟨last, sorted, inTurn, alike⟩
  exact ⟨_, last, Interchange.sorted_perm _ events, Interchange.pairwise_sorted _ events, inTurn,
    sorted, alike.documents, alike.pictures⟩

/-- Two players join at once; the counter is read and written by one after the other. A third
takes a picture meanwhile. -/
def joinTogether : List Event :=
  (World.start ∅ ∅).follow [
    .call 0 (.addGame (Game.init 7 2 "noon")), .answer 0,
    .call 1 (join 7 "ann"), .call 2 (join 7 "bob"),
    .answer 0, .answer 3, .answer 0, .answer 1, .answer 4, .answer 1, .answer 2, .answer 2,
    .call 3 (.imagePickerController ⟨7, "cat", "dan"⟩ someImage),
    .answer 0, .answer 0, .answer 1, .answer 0]

theorem runs_in_turn_joinTogether :
    ∃ final serial last, run World.step (World.start ∅ ∅) joinTogether = some final ∧
      serial.Perm joinTogether ∧ Meets World.step World.InTurn (World.start ∅ ∅) serial ∧
      run World.step (World.start ∅ ∅) serial = some last ∧
      ∀ path, final.firestore.lookup path = last.firestore.lookup path := by
  have ends : (run World.step (World.start ∅ ∅) joinTogether).any
      (fun final => final.outstanding = []) = true := by decide
  have agrees : Agrees id joinTogether := by decide
  rcases run_ends ends with ⟨final, performed, done⟩
  rcases runs_in_turn Function.injective_id agrees performed done with
    ⟨serial, last, perm, _, inTurn, serialised, documents, _⟩
  exact ⟨final, serial, last, performed, perm, inTurn, serialised, documents⟩

end AssassinGame
