import AssassinGame.Rooms.Requests

/-! # Rooms do not interfere

Every request names only paths of the room it was issued for, and the paths of
different rooms are different. A run therefore leaves in a room what the run
without the steps of all other rooms leaves there.
-/

namespace AssassinGame

open AssassinGame.Action Transition Segments

/-! ## Paths of different rooms -/

theorem killshotID_ne_decimal (left right : Int) : decimal left ≠ decimal right ++ "ks" :=
  decimal_ne_append (show 'k' ∈ "ks".toList by decide) (by decide) (by decide)

theorem killshotRef_injective {left right : Int}
    (equal : TabBarVC.killshotRef left = TabBarVC.killshotRef right) : left = right := by
  apply decimal_injective
  apply append_right_injective "ks"
  simpa [TabBarVC.killshotRef, games] using equal

theorem gameRef_ne_killshotRef (left right : Int) :
    gameRef left ≠ TabBarVC.killshotRef right := by
  intro equal
  exact killshotID_ne_decimal left right
    (by simpa [gameRef, TabBarVC.killshotRef, games] using equal)

theorem eq_of_prefixes {left right path : List String} (first : left <+: path)
    (second : right <+: path) (length : left.length = right.length) : left = right :=
  (List.prefix_of_prefix_length_le first second (by omega)).eq_of_length length

theorem ownsDocument_unique {left right : Int} {path : ResourcePath}
    (first : OwnsDocument left path) (second : OwnsDocument right path) : left = right := by
  rcases first with first | first <;> rcases second with second | second
  · exact gameRef_injective (eq_of_prefixes first second rfl)
  · exact absurd (eq_of_prefixes first second rfl) (gameRef_ne_killshotRef left right)
  · exact absurd (eq_of_prefixes second first rfl) (gameRef_ne_killshotRef right left)
  · exact killshotRef_injective (eq_of_prefixes first second rfl)

theorem ownsPicture_unique {left right : Int} {path : StoragePath}
    (first : OwnsPicture left path) (second : OwnsPicture right path) : left = right := by
  rcases first with first | first <;> rcases second with second | second <;>
    have equal := List.singleton_inj.mp (eq_of_prefixes first second rfl)
  · exact decimal_injective equal
  · exact absurd equal (killshotID_ne_decimal left right)
  · exact absurd equal.symm (killshotID_ne_decimal right left)
  · exact decimal_injective (append_right_injective "ks" equal)

/-! ## Requests stay in their room -/

theorem ownsDocument_child {room : Int} {collection text : String} {path : ResourcePath}
    (named : document? (gameRef room ++ [collection]) text = some path) :
    OwnsDocument room path := by
  left
  rw [document?_eq_some named, List.append_assoc]
  exact List.prefix_append _ _

theorem Issued.ownsDocument {operation : Operation} {write : Write}
    (issued : Issued operation (.write write)) : OwnsDocument operation.room write.path := by
  rcases issued with asked | answered
  · cases asked with
    | opens => exact .inl (List.prefix_refl _)
    | registers _ named => exact ownsDocument_child named
    | phones =>
        left
        rw [Write.path, phoneToPlayers, List.append_assoc]
        exact List.prefix_append _ _
    | removes _ named => exact ownsDocument_child named
    | publishes => exact .inr (List.prefix_refl _)
  · cases answered with
    | counts => exact .inl (List.prefix_refl _)
    | files _ _ named => exact ownsDocument_child named

theorem Issued.ownsPicture {operation : Operation} {path : StoragePath} {data : Data}
    (issued : Issued operation (.putData path data)) : OwnsPicture operation.room path := by
  rcases issued with asked | answered
  · cases asked with
    | uploads _ owned => exact owned
  · cases answered

theorem Issued.reads_gameRef {operation : Operation} {path : ResourcePath}
    {completion : Completion} (issued : Issued operation (.getDocument path completion)) :
    path = gameRef operation.room := by
  rcases issued with asked | answered
  · cases asked with
    | reads => rfl
  · cases answered

theorem lookup_applyTo_of_other {pending : Pending} {room : Int} {path : ResourcePath}
    (issued : Issued pending.operation pending.request)
    (other : pending.operation.room ≠ room) (owned : OwnsDocument room path)
    (store : Firestore) : (pending.applyTo store).lookup path = store.lookup path := by
  rcases pending with ⟨id, operation, request⟩
  cases request with
  | write write =>
      apply Write.lookup_apply_of_ne
      rintro rfl
      exact other (ownsDocument_unique (Issued.ownsDocument issued) owned)
  | putData | getDocument => rfl

theorem lookup_uploadTo_of_other {pending : Pending} {room : Int} {path : StoragePath}
    (issued : Issued pending.operation pending.request)
    (other : pending.operation.room ≠ room) (owned : OwnsPicture room path)
    (storage : Storage) : (pending.uploadTo storage).lookup path = storage.lookup path := by
  rcases pending with ⟨id, operation, request⟩
  cases request with
  | putData target data =>
      apply AList.lookup_insert_ne
      rintro rfl
      exact other (ownsPicture_unique (Issued.ownsPicture issued) owned)
  | write | getDocument => rfl

/-! ## What a request finds decides what it leaves -/

theorem Pending.lookup_applyTo_congr (pending : Pending) {path : ResourcePath}
    {left right : Firestore} (same : left.lookup path = right.lookup path) :
    (pending.applyTo left).lookup path = (pending.applyTo right).lookup path := by
  rcases pending with ⟨id, operation, request⟩
  cases request with
  | write write => exact write.lookup_apply_congr same
  | putData | getDocument => exact same

theorem Pending.lookup_uploadTo_congr (pending : Pending) {path : StoragePath}
    {left right : Storage} (same : left.lookup path = right.lookup path) :
    (pending.uploadTo left).lookup path = (pending.uploadTo right).lookup path := by
  rcases pending with ⟨id, operation, request⟩
  cases request with
  | putData target data =>
      by_cases own : path = target
      · subst own
        simp [Pending.uploadTo]
      · simp only [Pending.uploadTo, AList.lookup_insert_ne own]
        exact same
  | write | getDocument => exact same

theorem followUps_eq_of_lookup {pending : Pending}
    (issued : Issued pending.operation pending.request) {left right : Firestore}
    (same : left.lookup (gameRef pending.operation.room) =
      right.lookup (gameRef pending.operation.room)) (killerTarget : Option Player) :
    pending.followUps killerTarget left = pending.followUps killerTarget right := by
  rcases pending with ⟨id, operation, request⟩
  cases request with
  | getDocument path completion =>
      have read : path = gameRef operation.room := Issued.reads_gameRef issued
      subst read
      change left.lookup (gameRef operation.room) = right.lookup (gameRef operation.room) at same
      simp only [Pending.followUps, same]
  | write | putData => rfl

/-! ## One room's view of a world -/

/-- `alone` is the world of `room` by itself inside `world`. -/
structure Alone (room : Int) (world alone : World) : Prop where
  documents : ∀ path, OwnsDocument room path →
    world.firestore.lookup path = alone.firestore.lookup path
  pictures : ∀ path, OwnsPicture room path →
    world.storage.lookup path = alone.storage.lookup path
  calls : alone.calls = world.calls.filter (·.2.room = room)
  outstanding : alone.outstanding = world.outstanding.filter (·.operation.room = room)
  traced : world.Traced

namespace Alone

variable {room : Int} {world next alone : World}

theorem start (firestore : Firestore) (storage : Storage) :
    Alone room (World.start firestore storage) (World.start firestore storage) where
  documents _ _ := rfl
  pictures _ _ := rfl
  calls := rfl
  outstanding := rfl
  traced := World.traced_start firestore storage

theorem unblocked {pending : Pending} (view : Alone room world alone)
    (own : pending.operation.room = room) (free : pending.Unblocked world.outstanding) :
    pending.Unblocked alone.outstanding := by
  intro earlier member
  rw [view.outstanding, List.takeWhile_filter] at member
  have same : (fun other : Pending =>
      !decide (other.operation.room = room) || decide (other ≠ pending)) =
      fun other => decide (other ≠ pending) := by
    funext other
    by_cases equal : other = pending
    · simp [equal, own]
    · simp [equal]
  rw [same] at member
  exact free earlier (List.mem_of_mem_filter member)

theorem ready {pending : Pending} (view : Alone room world alone)
    (own : pending.operation.room = room) (ready : world.Ready pending) :
    alone.Ready pending := by
  refine ⟨?_, view.unblocked own ready.2⟩
  rw [view.outstanding]
  exact List.mem_filter.mpr ⟨ready.1, by simpa using own⟩

theorem filter_followUps {pending : Pending}
    (issued : Issued pending.operation pending.request) (killerTarget : Option Player)
    (store : Firestore) :
    (pending.followUps killerTarget store).filter (·.operation.room = room) =
      if pending.operation.room = room then pending.followUps killerTarget store else [] := by
  have same : ∀ other ∈ pending.followUps killerTarget store,
      other.operation.room = pending.operation.room := fun other member => by
    rw [(answered_of_mem_followUps issued member).2.1]
  split
  · rename_i own
    rw [List.filter_eq_self]
    intro other member
    simp [same other member, own]
  · rename_i other
    rw [List.filter_eq_nil_iff]
    intro follow member
    simp [same follow member, other]

theorem invisible {event : Event} (view : Alone room world alone)
    (other : event.room ≠ room) (stepped : world.step event = some next) :
    Alone room next alone := by
  have traced := view.traced.step stepped
  rcases World.step_cases stepped with
    ⟨id, operation, rfl, fresh, rfl⟩ | ⟨pending, killerTarget, rfl, ready, rfl⟩
  · change operation.room ≠ room at other
    refine ⟨view.documents, view.pictures, ?_, ?_, traced⟩
    · rw [view.calls, World.issue, List.filter_cons_of_neg (by simpa using other)]
    · have none' : (operation.action.requests.map (Pending.mk id operation)).filter
          (·.operation.room = room) = [] := by
        simp [List.filter_eq_nil_iff, other]
      rw [view.outstanding, World.issue, List.filter_append, none', List.append_nil]
  · change pending.operation.room ≠ room at other
    have issued := view.traced.issued ready.1
    refine ⟨fun path owned => ?_, fun path owned => ?_, view.calls, ?_, traced⟩
    · exact (lookup_applyTo_of_other issued other owned _).trans (view.documents path owned)
    · exact (lookup_uploadTo_of_other issued other owned _).trans (view.pictures path owned)
    · have untouched : pending ∉ world.outstanding.filter (·.operation.room = room) := by
        simp [other]
      rw [World.perform, List.filter_append, filter_followUps issued, if_neg other,
        List.append_nil, ← List.erase_filter, List.erase_of_not_mem untouched]
      exact view.outstanding

theorem matched {event : Event} (view : Alone room world alone) (own : event.room = room)
    (stepped : world.step event = some next) :
    ∃ other, alone.step event = some other ∧ Alone room next other := by
  have traced := view.traced.step stepped
  rcases World.step_cases stepped with
    ⟨id, operation, rfl, fresh, rfl⟩ | ⟨pending, killerTarget, rfl, ready, rfl⟩
  · change operation.room = room at own
    have freshAlone : id ∉ alone.calls.map Prod.fst := by
      rw [view.calls]
      intro used
      rcases List.mem_map.mp used with ⟨call, member, rfl⟩
      exact fresh (List.mem_map_of_mem (List.mem_of_mem_filter member))
    refine ⟨_, World.step_call.mpr ⟨freshAlone, rfl⟩, view.documents, view.pictures, ?_, ?_,
      traced⟩
    · simp [World.issue, view.calls, own]
    · have all : (operation.action.requests.map (Pending.mk id operation)).filter
          (·.operation.room = room) =
          operation.action.requests.map (Pending.mk id operation) := by
        rw [List.filter_eq_self]
        simp [own]
      simp only [World.issue, List.filter_append, all, view.outstanding]
  · change pending.operation.room = room at own
    have issued := view.traced.issued ready.1
    have follows : pending.followUps killerTarget world.firestore =
        pending.followUps killerTarget alone.firestore := by
      apply followUps_eq_of_lookup issued
      rw [own]
      exact view.documents _ (.inl (List.prefix_refl _))
    refine ⟨_, World.step_perform.mpr ⟨view.ready own ready, rfl⟩, ?_, ?_, view.calls, ?_,
      traced⟩
    · intro path owned
      exact pending.lookup_applyTo_congr (view.documents path owned)
    · intro path owned
      exact pending.lookup_uploadTo_congr (view.pictures path owned)
    · simp only [World.perform, List.filter_append, filter_followUps issued, if_pos own,
        ← List.erase_filter, view.outstanding, follows]

theorem unwinding (room : Int) :
    Unwinding World.step (fun event => decide (event.room = room)) (Alone room) where
  invisible hidden view stepped := view.invisible (by simpa using hidden) stepped
  matched seen view stepped := view.matched (by simpa using seen) stepped

end Alone

/-- Rooms do not interfere: deleting every step of the other rooms from a run
leaves a run that ends with the same documents and pictures in this room. No
path belongs to two rooms, and no game document is a killshot document. -/
theorem rooms_do_not_interfere {firestore : Firestore} {storage : Storage} {final : World}
    {events : List Event} (room : Int)
    (performed : run World.step (World.start firestore storage) events = some final) :
    (∃ alone, run World.step (World.start firestore storage)
        (events.filter (·.room = room)) = some alone ∧
      (∀ path, OwnsDocument room path →
        final.firestore.lookup path = alone.firestore.lookup path) ∧
      ∀ path, OwnsPicture room path →
        final.storage.lookup path = alone.storage.lookup path) ∧
    (∀ left right, left ≠ right →
      (∀ path, OwnsDocument left path → ¬OwnsDocument right path) ∧
      ∀ path, OwnsPicture left path → ¬OwnsPicture right path) ∧
    ∀ left right, gameRef left ≠ TabBarVC.killshotRef right ∧
      [decimal left] ≠ [decimal right ++ "ks"] := by
  refine ⟨?_, ?_, fun left right => ⟨gameRef_ne_killshotRef left right, ?_⟩⟩
  · rcases (Alone.unwinding room).purge (Alone.start firestore storage) performed with
      ⟨alone, purged, view⟩
    exact ⟨alone, purged, view.documents, view.pictures⟩
  · intro left right different
    exact ⟨fun path first second => different (ownsDocument_unique first second),
      fun path first second => different (ownsPicture_unique first second)⟩
  · intro equal
    exact killshotID_ne_decimal left right (List.singleton_inj.mp equal)

def twoRooms : List Event :=
  (World.start ∅ ∅).follow [
    .call 0 (.addGame (Game.init 1 4 "noon")),
    .call 1 (.addGame (Game.init 2 3 "noon")),
    .answer 0, .answer 0,
    .call 2 (join 1 "ann"), .call 3 (join 2 "bob"),
    .answer 4, .answer 0, .answer 5, .answer 2, .answer 0, .answer 4]

theorem rooms_do_not_interfere_twoRooms :
    ∃ final, run World.step (World.start ∅ ∅) twoRooms = some final ∧
      ∃ alone, run World.step (World.start ∅ ∅)
        (twoRooms.filter (·.room = 1)) = some alone ∧
        final.firestore.lookup (gameRef 1) = alone.firestore.lookup (gameRef 1) := by
  have ends : (run World.step (World.start ∅ ∅) twoRooms).isSome = true := by decide
  rcases Option.isSome_iff_exists.mp ends with ⟨final, performed⟩
  rcases rooms_do_not_interfere 1 performed with ⟨⟨alone, purged, documents, _⟩, _⟩
  exact ⟨final, performed, alone, purged, documents _ (.inl (List.prefix_refl _))⟩

end AssassinGame
