import AssassinGame.Rooms.Isolation
import Mathlib.Data.List.Perm.Subperm

/-! # The counter of a room under any schedule

A call changes the counter by reading it and writing a value computed from what
it read, so stale values may be under way when others are written. Every bound
that survives one write of a value lowered by one survives whole runs: the
bounds are indexed by the number of completed writes, and a value under way
already meets the bound of the moment after it is written.
-/

namespace AssassinGame

open AssassinGame.Action Transition World

def counter? (room : Int) (store : Firestore) : Option Int :=
  (store.lookup (gameRef room)).bind (·.int? "playerCount")

def Request.isRead : Request → Bool
  | .getDocument _ _ => true
  | _ => false

def Request.isUpdate : Request → Bool
  | .write (.updateData _ _) => true
  | _ => false

def Pending.updatesCounter (room : Int) (pending : Pending) : Bool :=
  match pending.request with
  | .write (.updateData path _) => decide (path = gameRef room)
  | _ => false

def Pending.opensRoom (room : Int) (pending : Pending) : Bool :=
  match pending.request with
  | .write (.setData path _) => decide (path = gameRef room)
  | _ => false

/-- The writes of a room's counter completed so far. -/
def World.updates (room : Int) (world : World) : Nat :=
  world.performed.countP (Pending.updatesCounter room)

/-! ## What one request does to a counter -/

theorem counter?_eq_of_lookup {room : Int} {left right : Firestore}
    (same : left.lookup (gameRef room) = right.lookup (gameRef room)) :
    counter? room left = counter? room right := by
  rw [counter?, counter?, same]

theorem counter?_of_same {left right : Firestore} {room : Int}
    (same : Option.Rel Document.Same (left.lookup (gameRef room))
      (right.lookup (gameRef room))) : counter? room left = counter? room right := by
  rw [counter?, counter?]
  generalize left.lookup (gameRef room) = before at same
  generalize right.lookup (gameRef room) = after at same
  cases same with
  | none => rfl
  | some fields => simp only [Option.bind_some, Document.int?, fields "playerCount"]

theorem below_ne_game (room : Int) (collection text : String) (rest : List String) :
    gameRef room ++ [collection] ++ rest ≠ games ++ [text] := by
  intro equal
  have length := congrArg List.length equal
  simp [gameRef, games] at length

theorem gameRef_ne_phone (left room : Int) (device : String) :
    gameRef left ≠ phoneToPlayers room ++ [device] :=
  (below_ne_game room "phoneToPlayers" (Segments.decimal left) [device]).symm

theorem gameRef_ne_child {left room : Int} {collection text : String} {path : ResourcePath}
    (named : document? (gameRef room ++ [collection]) text = some path) :
    gameRef left ≠ path := by
  rw [document?_eq_some named]
  exact (below_ne_game room collection (Segments.decimal left) (Segments.split text)).symm

/-- A performed request writes the counter, opens the room, or leaves the game
document alone. -/
theorem gameDocument_cases {pending : Pending}
    (issued : Issued pending.operation pending.request) (room : Int) (store : Firestore) :
    (∃ count, pending.operation.room = room ∧ pending.operation.change ≠ 0 ∧
      pending.request = .write (.updateData (gameRef room) (countFields count)) ∧
      (pending.applyTo store).lookup (gameRef room) =
        (store.lookup (gameRef room)).map (Document.merge (countFields count))) ∨
    (∃ game, pending.operation.room = room ∧ pending.operation.opened = some game ∧
      pending.opensRoom room = true ∧ pending.updatesCounter room = false ∧
      (pending.applyTo store).lookup (gameRef room) = some (gameFields game)) ∨
    (pending.updatesCounter room = false ∧
      (pending.applyTo store).lookup (gameRef room) = store.lookup (gameRef room)) := by
  rcases pending with ⟨id, operation, request⟩
  rcases issued with asked | answered
  · change Asked operation request at asked
    cases asked with
    | opens opened =>
        by_cases own : operation.room = room
        · subst own
          exact .inr (.inl ⟨_, rfl, opened, decide_eq_true rfl, rfl,
            Write.lookup_setData _ _ _⟩)
        · refine .inr (.inr ⟨rfl, Write.lookup_apply_of_ne ?_ _⟩)
          exact fun equal => own (gameRef_injective equal.symm)
    | registers _ named =>
        refine .inr (.inr ⟨rfl, Write.lookup_apply_of_ne ?_ _⟩)
        exact gameRef_ne_child named
    | phones device =>
        refine .inr (.inr ⟨rfl, Write.lookup_apply_of_ne ?_ _⟩)
        exact gameRef_ne_phone _ _ _
    | removes _ named =>
        refine .inr (.inr ⟨rfl, Write.lookup_apply_of_ne ?_ _⟩)
        exact gameRef_ne_child named
    | reads => exact .inr (.inr ⟨rfl, rfl⟩)
    | publishes data =>
        refine .inr (.inr ⟨rfl, Write.lookup_apply_of_ne ?_ _⟩)
        exact gameRef_ne_killshotRef _ _
    | uploads => exact .inr (.inr ⟨rfl, rfl⟩)
  · change Answered operation request at answered
    cases answered with
    | counts count changes =>
        by_cases own : operation.room = room
        · subst own
          exact .inl ⟨count, rfl, changes, rfl, Write.lookup_updateData _ _ _⟩
        · have different : gameRef operation.room ≠ gameRef room :=
            fun equal => own (gameRef_injective equal)
          refine .inr (.inr ⟨?_, Write.lookup_apply_of_ne different.symm _⟩)
          simp [Pending.updatesCounter, different]
    | files data _ named =>
        refine .inr (.inr ⟨rfl, Write.lookup_apply_of_ne ?_ _⟩)
        exact gameRef_ne_child named

theorem update_of_mem_followUps {pending other : Pending} {killerTarget : Option Player}
    {store : Firestore} {path : ResourcePath} {data : Document}
    (issued : Issued pending.operation pending.request)
    (member : other ∈ pending.followUps killerTarget store)
    (update : other.request = .write (.updateData path data)) :
    ∃ count, counter? pending.operation.room store = some count ∧
      path = gameRef pending.operation.room ∧
      data = countFields (count + pending.operation.change) := by
  rcases pending with ⟨id, operation, request⟩
  rcases issued with asked | answered
  · change Asked operation request at asked
    cases asked with
    | reads completes =>
        simp only [Pending.followUps, List.mem_map] at member
        rcases member with ⟨request, made, rfl⟩
        change request = _ at update
        subst update
        rcases handle_cases completes with ⟨_, handles⟩ | ⟨_, killer, handles⟩
        · rw [handles] at made
          rcases mem_changePlayerCount_requests made with
            ⟨document, count, found, counted, equal⟩
          simp only [Request.write.injEq, Write.updateData.injEq] at equal
          exact ⟨count, by simp [counter?, found, counted], equal⟩
        · rw [handles] at made
          rcases mem_addKillshot_completion made with ⟨victim, shotRef, filed, named, equal⟩
          cases equal
    | _ => simp [Pending.followUps] at member
  · change Answered operation request at answered
    cases answered <;> simp [Pending.followUps] at member

theorem not_isUpdate_of_asked {operation : Operation} {request : Request}
    (asked : Asked operation request) : request.isUpdate = false := by
  cases asked <;> rfl

theorem Answered.change_ne_zero {operation : Operation} {request : Request}
    (answered : Answered operation request) (update : request.isUpdate = true) :
    operation.change ≠ 0 := by
  cases answered with
  | counts _ changes => exact changes
  | files => cases update

theorem Pending.isUpdate_of_updatesCounter {pending : Pending} {room : Int}
    (counts : pending.updatesCounter room = true) : pending.request.isUpdate = true := by
  unfold Pending.updatesCounter at counts
  split at counts
  · rename_i shape
    rw [shape]
    rfl
  · cases counts

theorem changes_of_updatesCounter {pending : Pending} {room : Int}
    (issued : Issued pending.operation pending.request)
    (counts : pending.updatesCounter room = true) :
    pending.operation.room = room ∧ pending.operation.change ≠ 0 := by
  rcases gameDocument_cases issued room ∅ with
    ⟨_, own, changes, _⟩ | ⟨_, _, _, _, other, _⟩ | ⟨other, _⟩
  · exact ⟨own, changes⟩
  · rw [counts] at other
    cases other
  · rw [counts] at other
    cases other

theorem updates_perform (world : World) (pending : Pending) (killerTarget : Option Player)
    (room : Int) :
    (world.perform pending killerTarget).updates room =
      world.updates room + if pending.updatesCounter room then 1 else 0 :=
  List.countP_cons

/-! ## Bounds that last -/

/-- A bound on the counter after a number of completed writes which one more
write of a lowered value keeps. -/
structure Lasting (bound : Nat → Int → Prop) : Prop where
  weaken : ∀ {updates : Nat} {count : Int}, bound updates count → bound (updates + 1) count
  lower : ∀ {updates : Nat} {count : Int},
    bound updates count → bound (updates + 1) (count + -1)

/-- The operation removes nobody from the room and opens it only within the
bound. -/
def Operation.Within (room : Int) (bound : Nat → Int → Prop) (operation : Operation) :
    Prop :=
  operation.room = room → operation.removed = none ∧
    ∀ game, operation.opened = some game → ∀ updates, bound updates game.playerCount

theorem Operation.change_of_not_removed {operation : Operation}
    (changes : operation.change ≠ 0) (kept : operation.removed = none) :
    operation.change = -1 := by
  cases operation <;> simp_all [Operation.change, Operation.removed]

/-- The counter and every value under way for it meet the bound. -/
structure World.Bounded (room : Int) (bound : Nat → Int → Prop) (world : World) : Prop where
  traced : world.Traced
  within : ∀ call ∈ world.calls, call.2.Within room bound
  counter : ∀ count, counter? room world.firestore = some count →
    bound (world.updates room) count
  underWay : ∀ pending ∈ world.outstanding, ∀ count,
    pending.request = .write (.updateData (gameRef room) (countFields count)) →
    bound (world.updates room + 1) count

theorem countFields_injective {left right : Int}
    (equal : countFields left = countFields right) : left = right := by
  have read := congrArg (Document.int? · "playerCount") equal
  simpa [countFields] using read

namespace World.Bounded

variable {room : Int} {bound : Nat → Int → Prop} {world : World}

theorem issue (bounded : world.Bounded room bound) {id : CallId} {operation : Operation}
    (within : operation.Within room bound) (traced : (world.issue id operation).Traced) :
    (world.issue id operation).Bounded room bound where
  traced := traced
  within := by
    intro call member
    rcases List.mem_cons.mp member with rfl | old
    · exact within
    · exact bounded.within call old
  counter := bounded.counter
  underWay := by
    intro pending member count update
    rcases mem_outstanding_issue.mp member with old | ⟨_, _, asked⟩
    · exact bounded.underWay pending old count update
    · have none' := not_isUpdate_of_asked (asked_of_mem_requests asked)
      rw [update] at none'
      cases none'

theorem perform (bounded : world.Bounded room bound) (lasting : Lasting bound)
    {pending : Pending} {killerTarget : Option Player}
    (member : pending ∈ world.outstanding)
    (traced : (world.perform pending killerTarget).Traced) :
    (world.perform pending killerTarget).Bounded room bound := by
  have issued := bounded.traced.issued member
  have within := bounded.within _ (bounded.traced pending (.inl member)).1
  -- a value under way stays good while other writes complete
  have later : ∀ {updates count}, bound updates count →
      bound (updates + if pending.updatesCounter room then 1 else 0) count := by
    intro updates count holds
    split
    · exact lasting.weaken holds
    · exact holds
  refine ⟨traced, bounded.within, ?_, ?_⟩
  · intro count counted
    rw [updates_perform]
    rcases gameDocument_cases issued room world.firestore with
      ⟨written, own, _, update, stored⟩ | ⟨game, own, opened, _, _, stored⟩ | ⟨_, same⟩
    · have counts : pending.updatesCounter room = true := by
        simp [Pending.updatesCounter, update]
      rw [if_pos counts]
      have shown : count = written := by
        simp only [World.perform, counter?, stored, Option.bind_eq_some_iff,
          Option.map_eq_some_iff] at counted
        rcases counted with ⟨_, ⟨document, _, rfl⟩, read⟩
        simpa using read.symm
      exact bounded.underWay pending member count (shown ▸ update)
    · have shown : game.playerCount = count := by
        simpa [World.perform, counter?, stored] using counted
      exact shown ▸ (within own).2 game opened _
    · exact later (bounded.counter count (counter?_eq_of_lookup same ▸ counted))
  · intro other present count update
    rw [updates_perform]
    rcases mem_outstanding_perform present with old | new
    · have held := later (bounded.underWay other old count update)
      rwa [Nat.add_right_comm] at held
    · rcases update_of_mem_followUps issued new update with ⟨read, counted, path, data⟩
      have own : pending.operation.room = room := (gameRef_injective path).symm
      rcases answered_of_mem_followUps issued new with ⟨_, _, answered⟩
      have changes := answered.change_ne_zero (by simp [update, Request.isUpdate])
      rw [Operation.change_of_not_removed changes (within own).1] at data
      rw [countFields_injective data]
      have held := later (lasting.lower (bounded.counter read (own ▸ counted)))
      rwa [Nat.add_right_comm] at held

theorem step (bounded : world.Bounded room bound) (lasting : Lasting bound) {next : World}
    {event : Event}
    (within : ∀ id operation, event = .call id operation → operation.Within room bound)
    (stepped : world.step event = some next) : next.Bounded room bound := by
  have traced := bounded.traced.step stepped
  rcases step_cases stepped with
    ⟨id, operation, rfl, _, rfl⟩ | ⟨pending, killerTarget, rfl, ready, rfl⟩
  · exact bounded.issue (within id operation rfl) traced
  · exact bounded.perform lasting ready.1 traced

end World.Bounded

end AssassinGame
