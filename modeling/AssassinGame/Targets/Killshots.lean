import AssassinGame.World

/-! # The killshot document

All clients of a room write one killshot document, each of them afresh, while every
picture lies under the name of its target. One killshot is recorded; of several with
different targets the document keeps a single name.
-/

namespace AssassinGame

open AssassinGame.Action Transition World

structure Killshot where
  id : CallId
  screen : TabBarVC
  img : UIImage

namespace Killshot

def operation (shot : Killshot) : Operation := .imagePickerController shot.screen shot.img

/-- The name of the killshot's target can be read from the killshot document, and the
picture kept for the target is the one taken. -/
def Recorded (shot : Killshot) (world : World) : Prop :=
  (world.firestore.lookup (TabBarVC.killshotRef shot.screen.roomNumber)).bind
      (·.string? "name") = some shot.screen.targetName ∧
    ∃ data, shot.img.pngData = some data ∧ world.storage.lookup
      (TabBarVC.killshotPhotoRef shot.screen.roomNumber shot.screen.targetName) = some data

def uploads (shot : Killshot) (data : Data) : Pending :=
  ⟨shot.id, shot.operation,
    .putData (TabBarVC.killshotPhotoRef shot.screen.roomNumber shot.screen.targetName) data⟩

def publishes (shot : Killshot) : Pending :=
  ⟨shot.id, shot.operation, .write (.setData (TabBarVC.killshotRef shot.screen.roomNumber)
    (.fields [("name", .string shot.screen.targetName)]))⟩

/-! ## A single killshot -/

/-- Of a single killshot each request is under way or has taken effect. -/
structure Filing (shot : Killshot) (data : Data) (world : World) : Prop where
  only : ∀ pending ∈ world.outstanding,
    pending = shot.uploads data ∨ pending = shot.publishes
  picture : shot.uploads data ∈ world.outstanding ∨ world.storage.lookup
    (TabBarVC.killshotPhotoRef shot.screen.roomNumber shot.screen.targetName) = some data
  name : shot.publishes ∈ world.outstanding ∨
    (world.firestore.lookup (TabBarVC.killshotRef shot.screen.roomNumber)).bind
      (·.string? "name") = some shot.screen.targetName

section Single

variable {shot : Killshot} {data : Data} {world final : World}

theorem filing_issue (idle : world.outstanding = []) (png : shot.img.pngData = some data) :
    shot.Filing data (world.issue shot.id shot.operation) := by
  have queue : (world.issue shot.id shot.operation).outstanding =
      [shot.uploads data, shot.publishes] := by
    rw [World.issue, idle, operation, Operation.action,
      TabBarVC.imagePickerController_requests png]
    rfl
  refine ⟨fun pending member => ?_, .inl ?_, .inl ?_⟩
  · rw [queue] at member
    simpa using member
  · simp [queue]
  · simp [queue]

theorem uploads_ne_publishes : shot.uploads data ≠ shot.publishes := by
  simp [uploads, publishes]

theorem Filing.perform (filing : shot.Filing data world) {pending : Pending}
    (member : pending ∈ world.outstanding) (killerTarget : Option Player) :
    shot.Filing data (world.perform pending killerTarget) := by
  rcases filing.only pending member with rfl | rfl
  · refine ⟨fun other inside => ?_, .inr (AList.lookup_insert _), ?_⟩
    · rcases mem_outstanding_perform inside with old | new
      · exact filing.only other old
      · cases new
    · rcases filing.name with waits | written
      · exact .inl (List.mem_append_left _
          ((List.mem_erase_of_ne uploads_ne_publishes.symm).mpr waits))
      · exact .inr written
  · refine ⟨fun other inside => ?_, ?_, .inr ?_⟩
    · rcases mem_outstanding_perform inside with old | new
      · exact filing.only other old
      · cases new
    · rcases filing.picture with waits | stored
      · exact .inl (List.mem_append_left _
          ((List.mem_erase_of_ne uploads_ne_publishes).mpr waits))
      · exact .inr stored
    · simp [World.perform, Pending.applyTo, publishes, Write.lookup_setData]

theorem calls_suffix_of_run {events : List Event}
    (performed : run World.step world events = some final) :
    world.calls <:+ final.calls :=
  run_relates (fun left right => left.calls <:+ right.calls)
    (fun _ => List.suffix_rfl) (fun _ _ _ => List.IsSuffix.trans)
    (fun _ _ _ stepped => by
      rcases step_cases stepped with ⟨_, _, rfl, _, rfl⟩ | ⟨_, _, rfl, _, rfl⟩
      · exact List.suffix_cons _ _
      · exact List.suffix_rfl) performed

theorem Filing.run {events : List Event} (filing : shot.Filing data world)
    (performed : run World.step world events = some final)
    (alone : final.calls.length ≤ world.calls.length) : shot.Filing data final := by
  induction events generalizing world with
  | nil => exact Option.some.inj performed ▸ filing
  | cons event events induction =>
      rcases run_cons_eq_some.mp performed with ⟨next, stepped, rest⟩
      rcases step_cases stepped with
        ⟨id, operation, rfl, _, rfl⟩ | ⟨pending, killerTarget, rfl, ready, rfl⟩
      · have more := (calls_suffix_of_run rest).length_le
        simp only [World.issue, List.length_cons] at more
        omega
      · exact induction (filing.perform ready.1 killerTarget) rest alone

theorem recorded_of_single {firestore : Firestore} {storage : Storage} {events : List Event}
    (performed : Transition.run World.step (World.start firestore storage) events = some final)
    (taken : final.calls = [(shot.id, shot.operation)]) (done : final.outstanding = [])
    (png : shot.img.pngData = some data) : shot.Recorded final := by
  cases events with
  | nil =>
      cases performed
      cases taken
  | cons event events =>
      rcases run_cons_eq_some.mp performed with ⟨next, stepped, rest⟩
      rcases step_cases stepped with
        ⟨id, operation, rfl, _, rfl⟩ | ⟨pending, _, rfl, ready, rfl⟩
      · -- the call that was made first is the only one
        have only := calls_suffix_of_run rest
        rw [taken] at only
        rcases List.cons.inj (only.eq_of_length rfl) with ⟨same, _⟩
        cases same
        have filing := (filing_issue (show (World.start firestore storage).outstanding = [] from
          rfl) png).run rest (by rw [taken]; exact le_refl _)
        rw [Recorded]
        refine ⟨filing.name.resolve_left ?_, data, png, filing.picture.resolve_left ?_⟩
        · simp [done]
        · simp [done]
      · exact absurd ready.1 List.not_mem_nil

end Single

end Killshot

/-- Of the killshots taken in a room against different targets all are recorded in the
end, whatever the interleaving, if and only if there is at most one, and its picture has
a PNG form. -/
theorem killshots_recorded_iff {firestore : Firestore} {storage : Storage}
    {events : List Event} {final : World} {room : Int} {shots : List Killshot}
    (performed : run World.step (World.start firestore storage) events = some final)
    (taken : final.calls = shots.map fun shot => (shot.id, shot.operation))
    (own : ∀ shot ∈ shots, shot.screen.roomNumber = room)
    (distinct : (shots.map fun shot => shot.screen.targetName).Nodup)
    (done : final.outstanding = []) :
    (∀ shot ∈ shots, shot.Recorded final) ↔
      shots.length ≤ 1 ∧ ∀ shot ∈ shots, shot.img.pngData.isSome := by
  constructor
  · intro recorded
    constructor
    · match shots with
      | [] => simp
      | [_] => simp
      | first :: second :: _ =>
          -- the one killshot document would have to hold two names
          have firstName := (recorded first (by simp)).1
          have secondName := (recorded second (by simp)).1
          rw [own first (by simp)] at firstName
          rw [own second (by simp), firstName, Option.some.injEq] at secondName
          simp [secondName] at distinct
    · intro shot member
      rcases (recorded shot member).2 with ⟨data, png, _⟩
      rw [png]
      rfl
  · intro ⟨few, png⟩ shot member
    match shots, few with
    | [_], _ =>
        cases List.mem_singleton.mp member
        rcases Option.isSome_iff_exists.mp (png shot member) with ⟨data, found⟩
        exact Killshot.recorded_of_single performed taken done found

def annShoots : Killshot := ⟨0, ⟨7, "ann", "bob"⟩, ⟨some [1]⟩⟩

def catShoots : Killshot := ⟨1, ⟨7, "cat", "dan"⟩, ⟨some [2]⟩⟩

theorem killshots_recorded_iff_annShoots :
    ∃ final, run World.step (World.start ∅ ∅) ((World.start ∅ ∅).follow
        [.call 0 annShoots.operation, .answer 1, .answer 0]) = some final ∧
      annShoots.Recorded final := by
  have ends : (run World.step (World.start ∅ ∅) ((World.start ∅ ∅).follow
        [.call 0 annShoots.operation, .answer 1, .answer 0])).any (fun final =>
      final.outstanding = [] ∧ final.calls = [(0, annShoots.operation)]) = true := by
    decide
  rcases run_ends ends with ⟨final, performed, done, taken⟩
  exact ⟨final, performed, (@killshots_recorded_iff ∅ ∅ _ final 7 [annShoots] performed taken
    (by decide) (by decide) done).mpr ⟨by decide, by decide⟩ annShoots (by simp)⟩

/-- Two shots: the document keeps the name that was written last. -/
theorem killshot_lost :
    ∃ final, run World.step (World.start ∅ ∅) ((World.start ∅ ∅).follow
        [.call 0 annShoots.operation, .call 1 catShoots.operation,
          .answer 0, .answer 0, .answer 0, .answer 0]) = some final ∧
      final.outstanding = [] ∧ catShoots.Recorded final ∧ ¬annShoots.Recorded final := by
  have ends : (run World.step (World.start ∅ ∅) ((World.start ∅ ∅).follow
        [.call 0 annShoots.operation, .call 1 catShoots.operation,
          .answer 0, .answer 0, .answer 0, .answer 0])).any (fun final =>
      final.outstanding = [] ∧ (final.firestore.lookup (TabBarVC.killshotRef 7)).bind
          (·.string? "name") = some "dan" ∧
        final.storage.lookup (TabBarVC.killshotPhotoRef 7 "dan") = some [2]) = true := by
    decide
  rcases run_ends ends with ⟨final, performed, done, name, picture⟩
  refine ⟨final, performed, done, ⟨name, [2], rfl, picture⟩, fun recorded => ?_⟩
  have other := name.symm.trans recorded.1
  exact absurd other (by decide)

end AssassinGame
