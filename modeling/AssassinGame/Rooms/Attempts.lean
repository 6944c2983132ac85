import AssassinGame.App
import AssassinGame.Rooms.Collision
import AssassinGame.Rooms.Entrants

/-! # Attempts to register, when writes may be rejected

An attempt issues its writes one after the other and may trap between them, and each of
them can be rejected by itself. The player's document, the phone's entry, the photo and the
counter are all written, or nothing is, only if no write is rejected without the others.
-/

namespace AssassinGame

open AssassinGame.Action Transition World

/-! ## Attempts -/

/-- An attempt to register a player by `createRoom`, or by `joinGame`, whose screen is read
anew when the lookup is answered. -/
inductive Attempt
  | createRoom (screen : CreateGameVC) (roomNumber : Int) (date : String)
      (deviceID : Option UUID)
  | joinGame (typed edited : JoinGameVC) (deviceID : Option UUID)

namespace Attempt

def operation? (store : Firestore) : Attempt → Option Operation
  | .createRoom screen roomNumber date deviceID =>
      some (.createRoom screen roomNumber date deviceID)
  | .joinGame typed edited deviceID =>
      match typed.joinGame.result with
      | some path => if (store.lookup path).isSome then edited.operation? deviceID else none
      | none => none

def begin (attempt : Attempt) (call : CallId) (world : World) : World :=
  match attempt.operation? world.firestore with
  | some operation => world.issue call operation
  | none => world

theorem lowers {attempt : Attempt} {store : Firestore} {operation : Operation}
    (calls : attempt.operation? store = some operation) : operation.change = -1 := by
  cases attempt with
  | createRoom =>
      cases calls
      rfl
  | joinGame typed edited deviceID =>
      simp only [operation?] at calls
      split at calls
      · split at calls
        · rcases Option.bind_eq_some_iff.mp calls with ⟨image, _, rest⟩
          rcases Option.bind_eq_some_iff.mp rest with ⟨roomNumber, _, same⟩
          cases same
          rfl
        · cases calls
      · cases calls

end Attempt

/-! ## Writes of which some are rejected -/

theorem filter_setAll (keeps : Write → Bool) (entries : List (ResourcePath × Document)) :
    (setAll entries).filter keeps =
      setAll (entries.filter fun entry => keeps (.setData entry.1 entry.2)) := by
  rw [setAll, List.filter_map]
  rfl

theorem lookup_filter_setAll {entries : List (ResourcePath × Document)}
    (distinct : (entries.map Prod.fst).Nodup) {entry : ResourcePath × Document}
    (member : entry ∈ entries) (keeps : Write → Bool) (store : Firestore) :
    (applyAll ((setAll entries).filter keeps) store).lookup entry.1 =
      if keeps (.setData entry.1 entry.2) then some entry.2 else store.lookup entry.1 := by
  rw [filter_setAll]
  split
  · rename_i kept
    exact lookup_setAll_of_mem (distinct.sublist (List.filter_sublist.map _))
      (List.mem_filter.mpr ⟨member, kept⟩) store
  · rename_i rejected
    apply lookup_applyAll_of_ne
    intro write inside same
    rcases List.mem_map.mp inside with ⟨other, found, rfl⟩
    rcases List.mem_filter.mp found with ⟨listed, kept⟩
    have equal : other = entry := List.inj_on_of_nodup_map distinct listed member same
    subst equal
    exact rejected kept

theorem lookup_filter_setAll_of_ne {entries : List (ResourcePath × Document)}
    {path : ResourcePath} (apart : ∀ entry ∈ entries, entry.1 ≠ path)
    (keeps : Write → Bool) (store : Firestore) :
    (applyAll ((setAll entries).filter keeps) store).lookup path = store.lookup path := by
  apply lookup_applyAll_of_ne
  intro write inside
  rcases List.mem_map.mp (List.mem_of_mem_filter inside) with ⟨entry, member, rfl⟩
  exact apart entry member

/-! ## What a registration comes to -/

def documentsOf (room : Int) (deviceID : Option UUID) (player : Player) :
    List (ResourcePath × Document) :=
  match document? (players room) player.name with
  | some playerRef => registrationOf room deviceID player playerRef
  | none => []

def lowering (room count : Int) : Write :=
  .updateData (gameRef room) (countFields (count - 1))

def Operation.granted (accepted : Request → Bool) (operation : Operation) : Option Game :=
  operation.opened.filter fun game =>
    accepted (.write (.setData (gameRef operation.room) (gameFields game)))

/-- The count that a registration reads: that of the game that has been opened, and else the
one that was there. -/
def Operation.countRead (accepted : Request → Bool) (operation : Operation)
    (store : Firestore) : Option Int :=
  match operation.granted accepted with
  | some game => some game.playerCount
  | none => counter? operation.room store

section Registration

variable {accepted : Request → Bool} {operation : Operation} {deviceID : Option UUID}
  {player : Player} {world : World} {call : CallId} {room : Int}

theorem apart_documentsOf (room : Int) (deviceID : Option UUID) (player : Player)
    (other : Int) : ∀ entry ∈ documentsOf room deviceID player, entry.1 ≠ gameRef other := by
  intro entry member same
  unfold documentsOf at member
  split at member
  · rename_i playerRef named
    exact gameRef_not_isRegistration other
      (same ▸ isRegistration_registrationOf named entry member)
  · cases member

theorem distinct_documentsOf (room : Int) (deviceID : Option UUID) (player : Player) :
    ((documentsOf room deviceID player).map Prod.fst).Nodup := by
  unfold documentsOf
  split
  · rename_i playerRef named
    exact distinct_registrationOf named
  · exact List.nodup_nil

def Operation.documents (operation : Operation) (deviceID : Option UUID) (player : Player) :
    List (ResourcePath × Document) :=
  operation.opening ++ documentsOf operation.room deviceID player

theorem distinct_documents (operation : Operation) (deviceID : Option UUID) (player : Player) :
    ((operation.documents deviceID player).map Prod.fst).Nodup := by
  have rest := distinct_documentsOf operation.room deviceID player
  unfold Operation.documents Operation.opening
  cases operation.opened with
  | none => exact rest
  | some game =>
      refine List.nodup_cons.mpr ⟨fun member => ?_, rest⟩
      rcases List.mem_map.mp member with ⟨entry, inside, same⟩
      exact apart_documentsOf operation.room deviceID player _ entry inside same

theorem writes_of_registration
    (registers : operation.registration = some (deviceID, player)) :
    operation.action.requests.filterMap Request.write? =
      setAll (operation.documents deviceID player) := by
  rw [requests_of_registration registers, List.filterMap_append, List.filterMap_map]
  have own : (addPlayer deviceID operation.room player).requests.filterMap Request.write? =
      setAll (documentsOf operation.room deviceID player) := by
    unfold documentsOf
    split
    · rename_i playerRef named
      exact writes_addPlayer named
    · rename_i unnamed
      rw [addPlayer_requests_eq, unnamed]
      rfl
  rw [own, Operation.documents]
  simp [setAll, Function.comp_def, Request.write?]

def Operation.settled (accepted : Request → Bool) (operation : Operation)
    (deviceID : Option UUID) (player : Player) (store : Firestore) : Firestore :=
  applyAll ((setAll (operation.documents deviceID player)).filter fun write =>
    accepted (.write write)) store

theorem lookup_game_settled (store : Firestore) :
    (operation.settled accepted deviceID player store).lookup (gameRef operation.room) =
      match operation.granted accepted with
      | some game => some (gameFields game)
      | none => store.lookup (gameRef operation.room) := by
  cases opens : operation.opened with
  | none =>
      rw [Operation.granted, opens]
      refine lookup_filter_setAll_of_ne (fun entry member => ?_) _ store
      rw [Operation.documents, Operation.opening, opens] at member
      exact apart_documentsOf _ _ _ _ entry member
  | some game =>
      have member : (gameRef operation.room, gameFields game) ∈
          operation.documents deviceID player := by
        simp [Operation.documents, Operation.opening, opens]
      have found := lookup_filter_setAll (distinct_documents operation deviceID player) member
        (fun write => accepted (.write write)) store
      rw [Operation.settled, found, Operation.granted, opens, Option.filter_some]
      split <;> rfl

theorem counter?_settled (store : Firestore) :
    counter? operation.room (operation.settled accepted deviceID player store) =
      operation.countRead accepted store := by
  rw [counter?, lookup_game_settled, Operation.countRead]
  cases operation.granted accepted with
  | none => rfl
  | some game => exact playerCount_gameFields game

theorem acceptedWrites_map (requests : List Request) :
    acceptedWrites accepted (requests.map (Pending.mk call operation)) =
      (requests.filterMap Request.write?).filter fun write => accepted (.write write) := by
  induction requests with
  | nil => rfl
  | cons request requests induction =>
      rw [List.map_cons, acceptedWrites_cons, induction]
      cases request with
      | write write =>
          cases given : accepted (.write write) <;> simp [Request.write?, given]
      | putData path data =>
          rw [List.filterMap_cons_none rfl]
          exact congrArg (· ++ _) (ite_self [])
      | getDocument path completion =>
          rw [List.filterMap_cons_none rfl]
          exact congrArg (· ++ _) (ite_self [])

theorem followUps_addPlayer (store : Firestore) :
    Pending.followUps ⟨call, operation, .getDocument (gameRef room)
        (.addPlayer (gameRef room))⟩ none store =
      ((counter? room store).toList.map fun count => Request.write (lowering room count)).map
        (Pending.mk call operation) := by
  simp only [Pending.followUps, Completion.handle, addPlayer.completion, counter?]
  cases found : store.lookup (gameRef room) with
  | none => rfl
  | some data =>
      cases counted : data.int? "playerCount" with
      | none => simp [changePlayerCount, bind_requests, counted]
      | some count =>
          rw [handle_requests counted]
          simp [counted, lowering, sub_eq_add_neg]

def Operation.lowered (accepted : Request → Bool) (operation : Operation)
    (deviceID : Option UUID) (player : Player) (store : Firestore) : Option Int :=
  (operation.countRead accepted store).filter fun count =>
    decide (Registrable deviceID operation.room player) &&
      accepted (.write (lowering operation.room count))

/-- The store after a registration: what is written at once, and then the counter. -/
theorem outcomeUnder_of_registration (idle : world.outstanding = [])
    (registers : operation.registration = some (deviceID, player)) :
    (world.issue call operation).outcomeUnder accepted =
      applyAll ((operation.lowered accepted deviceID player world.firestore).toList.map
          (lowering operation.room))
        (operation.settled accepted deviceID player world.firestore) := by
  have written : acceptedWrites accepted
      (operation.action.requests.map (Pending.mk call operation)) =
      (setAll (operation.documents deviceID player)).filter fun write =>
        accepted (.write write) := by
    rw [acceptedWrites_map, writes_of_registration registers]
  have frontNotRead : ∀ pending ∈ ((setAll operation.opening).map Request.write).map
      (Pending.mk call operation), pending.request.isRead = false := by
    intro pending member
    rcases List.mem_map.mp member with ⟨_, inside, rfl⟩
    rcases List.mem_map.mp inside with ⟨_, _, rfl⟩
    rfl
  rw [World.outcomeUnder, World.issue, idle, List.nil_append, finishUnder, written]
  change applyAll (acceptedWrites accepted (answers _ (operation.settled accepted deviceID player
    world.firestore))) (operation.settled accepted deviceID player world.firestore) = _
  congr 1
  rw [requests_of_registration registers, List.map_append, answers_append,
    answers_eq_nil frontNotRead, List.nil_append, Operation.lowered]
  by_cases registrable : Registrable deviceID operation.room player
  · rcases read_last_of_registrable registrable with ⟨front, requests, notRead⟩
    have others : ∀ pending ∈ front.map (Pending.mk call operation),
        pending.request.isRead = false := by
      intro pending member
      rcases List.mem_map.mp member with ⟨request, inside, rfl⟩
      exact notRead request inside
    rw [requests, List.map_append, answers_append, answers_eq_nil others, List.nil_append,
      List.map_singleton, answers_cons, followUps_addPlayer, counter?_settled,
      show answers [] _ = [] from rfl, List.append_nil, acceptedWrites_map]
    cases operation.countRead accepted world.firestore with
    | none => rfl
    | some count =>
        cases given : accepted (.write (lowering operation.room count)) <;>
          simp [registrable, given, Request.write?, Option.filter_some]
  · have noRead : ∀ pending ∈ (addPlayer deviceID operation.room player).requests.map
        (Pending.mk call operation), pending.request.isRead = false := by
      intro pending member
      rcases List.mem_map.mp member with ⟨request, inside, rfl⟩
      exact not_isRead_of_not_registrable registrable request inside
    rw [answers_eq_nil noRead]
    simp [registrable, acceptedWrites, writesOf]

theorem uploadAll_filter (pendings : List Pending) (storage : Storage) :
    uploadAll (pendings.filter fun pending => accepted pending.request) storage =
      pendings.foldl (fun storage pending => pending.uploadUnder accepted storage) storage := by
  induction pendings generalizing storage with
  | nil => rfl
  | cons pending pendings induction =>
      rw [uploadAll_filter_cons, List.foldl_cons, induction]

theorem galleryUnder_of_registration (idle : world.outstanding = [])
    (registers : operation.registration = some (deviceID, player)) :
    (world.issue call operation).galleryUnder accepted =
      match player.image.pngData with
      | some data =>
          if Registrable deviceID operation.room player ∧
              accepted (.putData (photoRef operation.room player.name) data) then
            world.storage.insert (photoRef operation.room player.name) data
          else world.storage
      | none => world.storage := by
  have opened : ∀ pending ∈ (((setAll operation.opening).map Request.write).map
      (Pending.mk call operation)).filter fun pending => accepted pending.request,
      pending.request.isUpload = false := by
    intro pending member
    rcases List.mem_map.mp (List.mem_of_mem_filter member) with ⟨_, inside, rfl⟩
    rcases List.mem_map.mp inside with ⟨_, _, rfl⟩
    rfl
  rw [World.galleryUnder, World.issue, idle, List.nil_append,
    requests_of_registration registers, List.map_append, List.filter_append, uploadAll_append,
    uploadAll_eq_self opened, uploadAll_filter, addPlayer_requests_eq]
  cases named : document? (players operation.room) player.name <;> cases deviceID <;>
    cases png : player.image.pngData <;>
    simp [Pending.uploadUnder, Pending.uploadTo, Registrable, named, png]

theorem lookup_outcome_settled (idle : world.outstanding = [])
    (registers : operation.registration = some (deviceID, player)) {path : ResourcePath}
    (other : path ≠ gameRef operation.room) :
    ((world.issue call operation).outcomeUnder accepted).lookup path =
      (operation.settled accepted deviceID player world.firestore).lookup path := by
  rw [outcomeUnder_of_registration idle registers]
  apply lookup_applyAll_of_ne
  intro write member same
  rcases List.mem_map.mp member with ⟨count, _, rfl⟩
  exact other same.symm

theorem lookup_outcome_entry (idle : world.outstanding = [])
    (registers : operation.registration = some (deviceID, player))
    {entry : ResourcePath × Document}
    (member : entry ∈ documentsOf operation.room deviceID player) :
    ((world.issue call operation).outcomeUnder accepted).lookup entry.1 =
      if accepted (.write (.setData entry.1 entry.2)) then some entry.2
      else world.firestore.lookup entry.1 := by
  rw [lookup_outcome_settled idle registers (apart_documentsOf _ _ _ _ entry member)]
  exact lookup_filter_setAll (distinct_documents operation deviceID player)
    (List.mem_append_right _ member) _ world.firestore

theorem lookup_outcome_elsewhere (idle : world.outstanding = [])
    (registers : operation.registration = some (deviceID, player)) {path : ResourcePath}
    (other : path ≠ gameRef operation.room)
    (apart : ∀ entry ∈ documentsOf operation.room deviceID player, entry.1 ≠ path) :
    ((world.issue call operation).outcomeUnder accepted).lookup path =
      world.firestore.lookup path := by
  rw [lookup_outcome_settled idle registers other]
  apply lookup_filter_setAll_of_ne
  intro entry member
  rcases List.mem_append.mp member with opening | inside
  · rcases List.mem_map.mp opening with ⟨game, _, rfl⟩
    exact other.symm
  · exact apart entry inside

theorem lookup_outcome_game (idle : world.outstanding = [])
    (registers : operation.registration = some (deviceID, player)) :
    ((world.issue call operation).outcomeUnder accepted).lookup (gameRef operation.room) =
      match operation.lowered accepted deviceID player world.firestore with
      | some count =>
          ((operation.settled accepted deviceID player world.firestore).lookup
            (gameRef operation.room)).map (Document.merge (countFields (count - 1)))
      | none => (operation.settled accepted deviceID player world.firestore).lookup
          (gameRef operation.room) := by
  rw [outcomeUnder_of_registration idle registers]
  cases operation.lowered accepted deviceID player world.firestore with
  | none => rfl
  | some count => exact Write.lookup_updateData _ _ _

theorem counter?_outcome (idle : world.outstanding = [])
    (registers : operation.registration = some (deviceID, player)) :
    counter? operation.room ((world.issue call operation).outcomeUnder accepted) =
      match operation.lowered accepted deviceID player world.firestore with
      | some count => some (count - 1)
      | none => operation.countRead accepted world.firestore := by
  have settled := @counter?_settled accepted operation deviceID player world.firestore
  rw [outcomeUnder_of_registration idle registers]
  cases lowers : operation.lowered accepted deviceID player world.firestore with
  | none => exact settled
  | some count =>
      have read := (Option.filter_eq_some_iff.mp lowers).1
      exact counter?_update (settled.trans read) _

end Registration

/-! ## All or nothing -/

def Firestore.Holds (store : Firestore) (path : ResourcePath) (data : Document) : Prop :=
  Option.Rel Document.Same (store.lookup path) (some data)

structure Unchanged (before after : World) : Prop where
  documents : ∀ path,
    Option.Rel Document.Same (before.firestore.lookup path) (after.firestore.lookup path)
  pictures : ∀ path, before.storage.lookup path = after.storage.lookup path

namespace Operation

/-- The count that a registration is to lower: that of the game it opens, and else the one
that is there. -/
def countBefore (operation : Operation) (store : Firestore) : Option Int :=
  match operation.opened with
  | some game => some game.playerCount
  | none => counter? operation.room store

/-- The player is registered in the room, and counted. -/
structure Complete (operation : Operation) (deviceID : Option UUID) (player : Player)
    (before after : World) : Prop where
  game : (after.firestore.lookup (gameRef operation.room)).isSome
  document : ∃ playerRef ∈ document? (players operation.room) player.name,
    after.firestore.Holds playerRef (playerFields player)
  phone : ∃ device ∈ deviceID, after.firestore.Holds
    (phoneToPlayers operation.room ++ [device.uuidString]) (phoneFields player)
  photo : ∃ data ∈ player.image.pngData,
    after.storage.lookup (photoRef operation.room player.name) = some data
  count : ∃ base ∈ operation.countBefore before.firestore,
    counter? operation.room after.firestore = some (base - 1)

/-- The registration runs to its end, and each rejected write finds done what it was to
do. -/
structure Whole (accepted : Request → Bool) (operation : Operation) (deviceID : Option UUID)
    (player : Player) (world : World) : Prop where
  registrable : Registrable deviceID operation.room player
  written : ∀ entry ∈ documentsOf operation.room deviceID player,
    accepted (.write (.setData entry.1 entry.2)) = true ∨
      world.firestore.Holds entry.1 entry.2
  photo : ∀ data ∈ player.image.pngData,
    accepted (.putData (photoRef operation.room player.name) data) = true ∨
      world.storage.lookup (photoRef operation.room player.name) = some data
  count : ∃ count ∈ operation.countRead accepted world.firestore,
    ∃ base ∈ operation.countBefore world.firestore,
      count = if accepted (.write (lowering operation.room count)) then base else base - 1

/-- Each write that the registration comes to is rejected or finds done what it is to
do. -/
structure Void (accepted : Request → Bool) (operation : Operation) (deviceID : Option UUID)
    (player : Player) (world : World) : Prop where
  written : ∀ entry ∈ documentsOf operation.room deviceID player,
    accepted (.write (.setData entry.1 entry.2)) = true →
      world.firestore.Holds entry.1 entry.2
  photo : Registrable deviceID operation.room player → ∀ data ∈ player.image.pngData,
    accepted (.putData (photoRef operation.room player.name) data) = true →
      world.storage.lookup (photoRef operation.room player.name) = some data
  opened : ∀ game ∈ operation.granted accepted,
    world.firestore.Holds (gameRef operation.room)
      (if Registrable deviceID operation.room player ∧
          accepted (.write (lowering operation.room game.playerCount)) then
        Document.merge (countFields (game.playerCount - 1)) (gameFields game)
      else gameFields game)
  count : operation.granted accepted = none → Registrable deviceID operation.room player →
    ∀ count ∈ counter? operation.room world.firestore,
      accepted (.write (lowering operation.room count)) = false

end Operation

section Registration

variable {accepted : Request → Bool} {operation : Operation} {deviceID : Option UUID}
  {player : Player} {world final : World} {call : CallId}

theorem holds_ite_iff {given : Prop} [Decidable given] {data : Document}
    {found : Option Document} :
    Option.Rel Document.Same (if given then some data else found) (some data) ↔
      given ∨ Option.Rel Document.Same found (some data) := by
  split
  · rename_i holds
    exact iff_of_true (Document.Same.refl _) (.inl holds)
  · rename_i fails
    simp [fails]

theorem kept_ite_iff {given : Prop} [Decidable given] {data : Document}
    {found : Option Document} :
    Option.Rel Document.Same found (if given then some data else found) ↔
      (given → Option.Rel Document.Same found (some data)) := by
  split
  · rename_i holds
    simp [holds]
  · rename_i fails
    simp only [fails, false_implies, iff_true]
    exact Document.Same.refl found

theorem written_iff (idle : world.outstanding = [])
    (registers : operation.registration = some (deviceID, player))
    (documents : final.firestore = (world.issue call operation).outcomeUnder accepted) :
    (∀ entry ∈ documentsOf operation.room deviceID player,
      final.firestore.Holds entry.1 entry.2) ↔
    ∀ entry ∈ documentsOf operation.room deviceID player,
      accepted (.write (.setData entry.1 entry.2)) = true ∨
        world.firestore.Holds entry.1 entry.2 := by
  refine forall₂_congr fun entry member => ?_
  rw [Firestore.Holds, documents, lookup_outcome_entry idle registers member]
  exact holds_ite_iff

theorem documentsOf_of_registrable {playerRef : ResourcePath} {device : UUID}
    (named : document? (players operation.room) player.name = some playerRef) :
    documentsOf operation.room (some device) player =
      [(playerRef, playerFields player),
        (phoneToPlayers operation.room ++ [device.uuidString], phoneFields player)] := by
  rw [documentsOf, named]
  rfl

theorem photographed_iff (idle : world.outstanding = [])
    (registers : operation.registration = some (deviceID, player))
    (registrable : Registrable deviceID operation.room player)
    (pictures : final.storage = (world.issue call operation).galleryUnder accepted)
    {data : Data} (png : player.image.pngData = some data) :
    final.storage.lookup (photoRef operation.room player.name) = some data ↔
      accepted (.putData (photoRef operation.room player.name) data) = true ∨
        world.storage.lookup (photoRef operation.room player.name) = some data := by
  rw [pictures, galleryUnder_of_registration idle registers, png]
  simp only [registrable, true_and]
  split
  · rename_i given
    exact iff_of_true (AList.lookup_insert _) (.inl given)
  · rename_i rejected
    simp [rejected]

theorem counted_iff (idle : world.outstanding = [])
    (registers : operation.registration = some (deviceID, player))
    (registrable : Registrable deviceID operation.room player)
    (documents : final.firestore = (world.issue call operation).outcomeUnder accepted)
    (base : Int) :
    counter? operation.room final.firestore = some (base - 1) ↔
      ∃ count ∈ operation.countRead accepted world.firestore,
        count = if accepted (.write (lowering operation.room count)) then base
          else base - 1 := by
  rw [documents, counter?_outcome idle registers, Operation.lowered]
  cases operation.countRead accepted world.firestore with
  | none => simp
  | some count =>
      cases given : accepted (.write (lowering operation.room count)) <;>
        simp [registrable, given, Option.filter_some]

/-- The player is registered if and only if nothing was rejected that was missing. -/
theorem complete_iff_whole (idle : world.outstanding = [])
    (registers : operation.registration = some (deviceID, player))
    (documents : final.firestore = (world.issue call operation).outcomeUnder accepted)
    (pictures : final.storage = (world.issue call operation).galleryUnder accepted) :
    operation.Complete deviceID player world final ↔
      operation.Whole accepted deviceID player world := by
  have written := written_iff idle registers documents
  constructor
  · intro complete
    rcases complete.document with ⟨playerRef, named, document⟩
    rcases complete.phone with ⟨device, identified, phone⟩
    rcases complete.photo with ⟨data, png, photo⟩
    rcases complete.count with ⟨base, before, counted⟩
    cases identified
    have registrable : Registrable (some device) operation.room player :=
      registrable_iff.mpr ⟨⟨playerRef, named⟩, ⟨device, rfl⟩, data, png⟩
    refine ⟨registrable, written.mp ?_, ?_, ?_⟩
    · rw [documentsOf_of_registrable named]
      simpa using ⟨document, phone⟩
    · intro other same
      cases png.symm.trans same
      exact (photographed_iff idle registers registrable pictures png).mp photo
    · rcases (counted_iff idle registers registrable documents base).mp counted with
        ⟨count, read, same⟩
      exact ⟨count, read, base, before, same⟩
  · intro whole
    have registrable := whole.registrable
    rcases registrable_iff.mp registrable with ⟨⟨playerRef, named⟩, ⟨device, rfl⟩, data, png⟩
    rcases whole.count with ⟨count, read, base, before, same⟩
    have counted := (counted_iff idle registers registrable documents base).mpr
      ⟨count, read, same⟩
    have stored := written.mpr whole.written
    rw [documentsOf_of_registrable named] at stored
    refine ⟨?_, ⟨playerRef, named, stored _ List.mem_cons_self⟩,
      ⟨device, rfl, stored _ (List.mem_cons_of_mem _ List.mem_cons_self)⟩,
      ⟨data, png, ?_⟩, base, before, counted⟩
    · rcases Option.bind_eq_some_iff.mp counted with ⟨document, found, _⟩
      exact Option.isSome_of_eq_some found
    · exact (photographed_iff idle registers registrable pictures png).mpr (whole.photo data png)

theorem lookup_outcome_granted (idle : world.outstanding = [])
    (registers : operation.registration = some (deviceID, player)) {game : Game}
    (granted : operation.granted accepted = some game) :
    ((world.issue call operation).outcomeUnder accepted).lookup (gameRef operation.room) =
      some (if Registrable deviceID operation.room player ∧
          accepted (.write (lowering operation.room game.playerCount)) then
        Document.merge (countFields (game.playerCount - 1)) (gameFields game)
      else gameFields game) := by
  have read : operation.countRead accepted world.firestore = some game.playerCount := by
    rw [Operation.countRead, granted]
  rw [lookup_outcome_game idle registers, lookup_game_settled, granted, Operation.lowered, read,
    Option.filter_some]
  by_cases registrable : Registrable deviceID operation.room player
  · simp only [registrable, decide_true, Bool.true_and, true_and]
    cases accepted (.write (lowering operation.room game.playerCount)) <;> rfl
  · simp [registrable]

theorem game_kept_iff (idle : world.outstanding = [])
    (registers : operation.registration = some (deviceID, player))
    (refused : operation.granted accepted = none) :
    Option.Rel Document.Same (world.firestore.lookup (gameRef operation.room))
      (((world.issue call operation).outcomeUnder accepted).lookup (gameRef operation.room)) ↔
    (Registrable deviceID operation.room player →
      ∀ count ∈ counter? operation.room world.firestore,
        accepted (.write (lowering operation.room count)) = false) := by
  have read : operation.countRead accepted world.firestore =
      counter? operation.room world.firestore := by
    rw [Operation.countRead, refused]
  cases lowers : operation.lowered accepted deviceID player world.firestore with
  | none =>
      have game := @lookup_outcome_game accepted operation deviceID player world call idle registers
      rw [lowers] at game
      simp only [lookup_game_settled, refused] at game
      rw [game]
      refine iff_of_true (Document.Same.refl _) fun registrable count there => ?_
      rw [Operation.lowered, read, Option.mem_def.mp there] at lowers
      simpa [registrable, Option.filter_some] using lowers
  | some count =>
      have counted := @counter?_outcome accepted operation deviceID player world call idle registers
      rw [lowers] at counted
      rcases Option.filter_eq_some_iff.mp lowers with ⟨there, lowered⟩
      rw [read] at there
      rw [Bool.and_eq_true, decide_eq_true_iff] at lowered
      refine iff_of_false (fun same => ?_) fun kept => ?_
      · have equal := counter?_of_same same
        rw [counted, there, Option.some.injEq] at equal
        omega
      · rw [kept lowered.1 count there] at lowered
        cases lowered.2

theorem pictures_kept_iff (idle : world.outstanding = [])
    (registers : operation.registration = some (deviceID, player)) :
    (∀ path, world.storage.lookup path =
      ((world.issue call operation).galleryUnder accepted).lookup path) ↔
    (Registrable deviceID operation.room player → ∀ data ∈ player.image.pngData,
      accepted (.putData (photoRef operation.room player.name) data) = true →
        world.storage.lookup (photoRef operation.room player.name) = some data) := by
  rw [galleryUnder_of_registration idle registers]
  cases player.image.pngData with
  | none => simp
  | some data =>
      simp only [Option.mem_def, Option.some.injEq, forall_eq']
      split
      · rename_i uploaded
        simp only [uploaded.1, uploaded.2, forall_const]
        constructor
        · intro kept
          rw [kept, AList.lookup_insert]
        · intro there path
          by_cases own : path = photoRef operation.room player.name
          · rw [own, there, AList.lookup_insert]
          · rw [AList.lookup_insert_ne own]
      · rename_i kept
        exact iff_of_true (fun _ => rfl) fun registrable given => (kept ⟨registrable, given⟩).elim

/-- The stores are what they were if and only if no write changed what it found. -/
theorem unchanged_iff_void (idle : world.outstanding = [])
    (registers : operation.registration = some (deviceID, player))
    (documents : final.firestore = (world.issue call operation).outcomeUnder accepted)
    (pictures : final.storage = (world.issue call operation).galleryUnder accepted) :
    Unchanged world final ↔ operation.Void accepted deviceID player world := by
  have entries (entry : ResourcePath × Document)
      (member : entry ∈ documentsOf operation.room deviceID player) :
      Option.Rel Document.Same (world.firestore.lookup entry.1) (final.firestore.lookup entry.1) ↔
        (accepted (.write (.setData entry.1 entry.2)) = true →
          world.firestore.Holds entry.1 entry.2) := by
    rw [documents, lookup_outcome_entry idle registers member]
    exact kept_ite_iff
  have photos := @pictures_kept_iff accepted operation deviceID player world call idle registers
  rw [← pictures] at photos
  constructor
  · intro unchanged
    refine ⟨fun entry member => (entries entry member).mp (unchanged.documents entry.1),
      photos.mp unchanged.pictures, fun game granted => ?_, fun refused => ?_⟩
    · have same := unchanged.documents (gameRef operation.room)
      rwa [documents, lookup_outcome_granted idle registers granted] at same
    · have same := unchanged.documents (gameRef operation.room)
      rw [documents] at same
      exact (game_kept_iff idle registers refused).mp same
  · intro void
    refine ⟨fun path => ?_, photos.mpr void.photo⟩
    by_cases own : path = gameRef operation.room
    · subst own
      rw [documents]
      cases granted : operation.granted accepted with
      | none => exact (game_kept_iff idle registers granted).mpr (void.count granted)
      | some game =>
          rw [lookup_outcome_granted idle registers granted]
          exact void.opened game granted
    · by_cases written : ∃ entry ∈ documentsOf operation.room deviceID player, entry.1 = path
      · rcases written with ⟨entry, member, rfl⟩
        exact (entries entry member).mpr (void.written entry member)
      · have apart : ∀ entry ∈ documentsOf operation.room deviceID player, entry.1 ≠ path :=
          fun entry member same => written ⟨entry, member, same⟩
        rw [documents, lookup_outcome_elsewhere idle registers own apart]
        exact Document.Same.refl _

end Registration

/-! ## Attempts that have come to their end -/

theorem onePicture_of_registration {operation : Operation} {deviceID : Option UUID}
    {player : Player} {world : World} (idle : world.outstanding = [])
    (registers : operation.registration = some (deviceID, player)) (call : CallId) :
    (world.issue call operation).OnePicture := by
  have opens : ((setAll operation.opening).map Request.write).countP Request.isUpload = 0 := by
    rw [List.countP_eq_zero]
    intro request member
    rcases List.mem_map.mp member with ⟨write, _, rfl⟩
    simp [Request.isUpload]
  rw [World.OnePicture, World.issue, idle, List.nil_append, List.countP_map,
    requests_of_registration registers]
  change List.countP Request.isUpload _ ≤ 1
  rw [List.countP_append, opens, zero_add]
  exact countP_isUpload_addPlayer _ _ _

namespace Attempt

def AllOrNothing (attempt : Attempt) (before after : World) : Prop :=
  (∃ operation ∈ attempt.operation? before.firestore, ∃ deviceID player,
    operation.registration = some (deviceID, player) ∧
      operation.Complete deviceID player before after) ∨ Unchanged before after

/-- Nothing is rejected that is missing, or nothing is accepted that changes anything. -/
def Atomic (accepted : Request → Bool) (attempt : Attempt) (world : World) : Prop :=
  ∀ operation ∈ attempt.operation? world.firestore, ∀ deviceID player,
    operation.registration = some (deviceID, player) →
      operation.Whole accepted deviceID player world ∨
        operation.Void accepted deviceID player world

theorem begin_of_none {attempt : Attempt} {world : World} (call : CallId)
    (unmade : attempt.operation? world.firestore = none) : attempt.begin call world = world := by
  rw [begin, unmade]

theorem begin_of_some {attempt : Attempt} {world : World} {operation : Operation} (call : CallId)
    (calls : attempt.operation? world.firestore = some operation) :
    attempt.begin call world = world.issue call operation := by
  rw [begin, calls]

end Attempt

theorem unchanged_of_idle {accepted : Request → Bool} {world final : World}
    (solo : world.Solo) (idle : world.outstanding = []) {events : List Event}
    (performed : run (World.stepUnder accepted) world events = some final)
    (continues : ∀ event ∈ events, event.performs = true) (done : final.outstanding = []) :
    final.firestore = world.firestore ∧ final.storage = world.storage := by
  have one : world.OnePicture := by simp [World.OnePicture, idle]
  have ended := solo.run_outcomeUnder one performed continues done
  rw [World.outcomeUnder, World.galleryUnder, idle] at ended
  exact ended

/-- An attempt by itself registers its player entirely or leaves the stores as they were if
and only if each rejected write finds done what it was to do, or no accepted write has
anything to do. -/
theorem registration_all_or_nothing {accepted : Request → Bool} {attempt : Attempt}
    {firestore : Firestore} {storage : Storage} {call : CallId} {events : List Event}
    {final : World}
    (performed : run (World.stepUnder accepted)
      (attempt.begin call (World.start firestore storage)) events = some final)
    (continues : ∀ event ∈ events, event.performs = true) (done : final.outstanding = []) :
    attempt.AllOrNothing (World.start firestore storage) final ↔
      attempt.Atomic accepted (World.start firestore storage) := by
  have orderly := Orderly.start firestore storage
  have untouched (same : final.firestore = firestore ∧ final.storage = storage) :
      Unchanged (World.start firestore storage) final := by
    refine ⟨fun path => ?_, fun path => ?_⟩
    · rw [same.1]
      exact Document.Same.refl _
    · rw [same.2]
      rfl
  cases calls : attempt.operation? (World.start firestore storage).firestore with
  | none =>
      rw [Attempt.begin_of_none call calls] at performed
      refine iff_of_true (.inr (untouched ?_)) fun operation made => ?_
      · exact unchanged_of_idle (Solo.of_idle orderly rfl) rfl performed continues done
      · rw [calls] at made
        cases made
  | some operation =>
      have lowers := Attempt.lowers calls
      have solo : ((World.start firestore storage).issue call operation).Solo :=
        Solo.issue rfl (by rw [lowers]; decide)
          (orderly.step (step_call.mpr ⟨by simp [start], rfl⟩))
      rw [Attempt.begin_of_some call calls] at performed
      cases registers : operation.registration with
      | none =>
          have idle : ((World.start firestore storage).issue call operation).outstanding = [] :=
            outstanding_issue_of_nothing rfl call (requests_of_no_registration lowers registers)
          refine iff_of_true (.inr (untouched ?_)) fun other made deviceID player found => ?_
          · exact unchanged_of_idle solo idle performed continues done
          · cases calls.symm.trans made
            rw [registers] at found
            cases found
      | some registration =>
          rcases registration with ⟨deviceID, player⟩
          have ended := solo.run_outcomeUnder (onePicture_of_registration rfl registers call)
            performed continues done
          have complete := complete_iff_whole rfl registers ended.1 ended.2
          have unchanged := unchanged_iff_void rfl registers ended.1 ended.2
          simp [Attempt.AllOrNothing, Attempt.Atomic, calls, registers, complete, unchanged]

def openingAttempt (image : UIImage) : Attempt :=
  .createRoom (CreateGameVC.mk (some image) "2" "ann") 123 "noon" (some somePhone)

def openingEvents (image : UIImage) : List Event :=
  answerAll none 6 ((openingAttempt image).begin 0 (World.start ∅ ∅))

theorem registration_all_or_nothing_opening :
    ∃ final, run (World.stepUnder fun _ => true)
        ((openingAttempt someImage).begin 0 (World.start ∅ ∅)) (openingEvents someImage) =
        some final ∧
      (openingAttempt someImage).AllOrNothing (World.start ∅ ∅) final := by
  have ends : (run (World.stepUnder fun _ => true)
      ((openingAttempt someImage).begin 0 (World.start ∅ ∅)) (openingEvents someImage)).any
      (fun final => final.outstanding = []) = true := by decide
  rcases run_ends ends with ⟨final, performed, done⟩
  refine ⟨final, performed, (registration_all_or_nothing performed (by decide) done).mpr ?_⟩
  intro operation made deviceID player registers
  cases made
  have registered : (Operation.createRoom (CreateGameVC.mk (some someImage) "2" "ann") 123 "noon"
      (some somePhone)).registration = some (some somePhone, Player.init "ann" someImage) := by
    decide
  rw [registered] at registers
  cases registers
  exact .inl ⟨by decide, fun _ _ => .inl rfl, fun _ _ => .inl rfl,
    2, by decide, 2, by decide, by decide⟩

/-- A picture that has no PNG form traps the attempt once the player's document and the
phone's entry are written. -/
theorem registration_traps_halfway :
    ∃ final, run (World.stepUnder fun _ => true)
        ((openingAttempt ⟨none⟩).begin 0 (World.start ∅ ∅)) (openingEvents ⟨none⟩) =
        some final ∧
      (∀ event ∈ openingEvents ⟨none⟩, event.performs = true) ∧ final.outstanding = [] ∧
      ¬(openingAttempt ⟨none⟩).AllOrNothing (World.start ∅ ∅) final := by
  have ends : (run (World.stepUnder fun _ => true)
      ((openingAttempt ⟨none⟩).begin 0 (World.start ∅ ∅)) (openingEvents ⟨none⟩)).any
      (fun final => final.outstanding = [] ∧
        (final.firestore.lookup (players 123 ++ ["ann"])).isSome) = true := by decide
  rcases run_ends ends with ⟨final, performed, done, written⟩
  refine ⟨final, performed, by decide, done, ?_⟩
  rintro (⟨operation, made, deviceID, player, registers, complete⟩ | unchanged)
  · cases made
    have registered : (Operation.createRoom (CreateGameVC.mk (some ⟨none⟩) "2" "ann") 123 "noon"
        (some somePhone)).registration = some (some somePhone, Player.init "ann" ⟨none⟩) := by
      decide
    rw [registered] at registers
    cases registers
    rcases complete.photo with ⟨data, png, _⟩
    cases png
  · have same := unchanged.documents (players 123 ++ ["ann"])
    rcases Option.isSome_iff_exists.mp written with ⟨data, found⟩
    rw [found] at same
    cases same

end AssassinGame
