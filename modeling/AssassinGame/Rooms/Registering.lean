import AssassinGame.Rooms.Balance
import AssassinGame.Rooms.Solo

/-! # What a call by itself leaves behind

A call that registers a player, alone or after it has opened the room, writes its
documents in order and, if it runs to its end, the counter after them.
-/

namespace AssassinGame

open AssassinGame.Action Transition World

/-! ## Writes that keep what is there -/

theorem lookup_applyAll_congr (writes : List Write) {path : ResourcePath}
    {left right : Firestore} (same : left.lookup path = right.lookup path) :
    (applyAll writes left).lookup path = (applyAll writes right).lookup path := by
  induction writes generalizing left right with
  | nil => exact same
  | cons write writes induction => exact induction (write.lookup_apply_congr same)

def setAll (entries : List (ResourcePath × Document)) : List Write :=
  entries.map fun entry => .setData entry.1 entry.2

theorem lookup_setAll_of_mem {entries : List (ResourcePath × Document)}
    (distinct : (entries.map Prod.fst).Nodup) {entry : ResourcePath × Document}
    (member : entry ∈ entries) (store : Firestore) :
    (applyAll (setAll entries) store).lookup entry.1 = some entry.2 := by
  induction entries generalizing store with
  | nil => cases member
  | cons first rest induction =>
      have unique := List.nodup_cons.mp distinct
      rcases List.mem_cons.mp member with rfl | inside
      · have apart : ∀ write ∈ setAll rest, write.path ≠ entry.1 := by
          intro write written equal
          rcases List.mem_map.mp written with ⟨other, inside, rfl⟩
          exact unique.1 (equal ▸ List.mem_map_of_mem inside)
        exact (lookup_applyAll_of_ne apart _).trans (Write.lookup_setData _ _ _)
      · exact induction unique.2 inside _

theorem setAll_keeps_iff {entries : List (ResourcePath × Document)}
    (distinct : (entries.map Prod.fst).Nodup) {concerned : ResourcePath → Prop}
    (concerns : ∀ entry ∈ entries, concerned entry.1) (store : Firestore) :
    (∀ path data, concerned path → store.lookup path = some data →
      (applyAll (setAll entries) store).lookup path = some data) ↔
    ∀ entry ∈ entries, ∀ data, store.lookup entry.1 = some data → data = entry.2 := by
  constructor
  · intro keeps entry member data found
    have kept := keeps entry.1 data (concerns entry member) found
    rw [lookup_setAll_of_mem distinct member] at kept
    exact (Option.some.inj kept).symm
  · intro equal path data _ found
    by_cases written : path ∈ entries.map Prod.fst
    · rcases List.mem_map.mp written with ⟨entry, member, rfl⟩
      rw [lookup_setAll_of_mem distinct member, equal entry member data found]
    · rw [lookup_applyAll_of_ne, found]
      intro write inside same
      rcases List.mem_map.mp inside with ⟨entry, member, rfl⟩
      exact written (same ▸ List.mem_map_of_mem member)

/-! ## Calls by themselves -/

section Finish

variable {world : World} {room count : Int}

theorem counter?_applyAll {writes : List Write}
    (apart : ∀ write ∈ writes, write.path ≠ gameRef room) (store : Firestore) :
    counter? room (applyAll writes store) = counter? room store :=
  counter?_eq_of_lookup (lookup_applyAll_of_ne apart store)

theorem counter?_update {store : Firestore} (counted : counter? room store = some count)
    (written : Int) :
    counter? room ((Write.updateData (gameRef room) (countFields written)).apply store) =
      some written := by
  rcases Option.bind_eq_some_iff.mp counted with ⟨document, found, _⟩
  simp [counter?, Write.lookup_updateData, found]

theorem outcome_issue (idle : world.outstanding = []) (id : CallId) (operation : Operation) :
    (world.issue id operation).outcome =
      finish (operation.action.requests.map (Pending.mk id operation)) world.firestore := by
  rw [World.outcome, World.issue, idle, List.nil_append]

theorem outstanding_issue_of_nothing (idle : world.outstanding = []) (id : CallId)
    {operation : Operation} (nothing : operation.action.requests = []) :
    (world.issue id operation).outstanding = [] := by
  rw [World.issue, idle, nothing]
  rfl

theorem finish_without_read {pendings : List Pending}
    (notRead : ∀ pending ∈ pendings, pending.request.isRead = false) (store : Firestore) :
    finish pendings store = applyAll (writesOf pendings) store := by
  simp only [finish, answers_eq_nil notRead]
  rfl

/-- A call that reads the counter last writes it after all its other writes. -/
theorem finish_of_read (room : Int) (call : CallId) (operation : Operation) (front : List Request)
    {completion : Completion} {store : Firestore}
    (notRead : ∀ request ∈ front, request.isRead = false)
    (asked : Asked operation (.getDocument (gameRef room) completion))
    (changes : operation.change ≠ 0)
    (counted : counter? room (applyAll (front.filterMap Request.write?) store) = some count) :
    finish ((front ++ [Request.getDocument (gameRef room) completion]).map
        (Pending.mk call operation)) store =
      (Write.updateData (gameRef room) (countFields (count + operation.change))).apply
        (applyAll (front.filterMap Request.write?) store) := by
  have writes : writesOf (front.map (Pending.mk call operation)) =
      front.filterMap Request.write? := by
    simp [writesOf, List.filterMap_map]
  have noAnswers (store : Firestore) :
      answers (front.map (Pending.mk call operation)) store = [] := by
    apply answers_eq_nil
    intro pending member
    rcases List.mem_map.mp member with ⟨request, inside, rfl⟩
    exact notRead request inside
  have answer := @followUps_of_readsCounter
    ⟨call, operation, .getDocument (gameRef room) completion⟩ none _ room count (.inl asked)
    (decide_eq_true rfl) changes counted
  simp only [finish, List.map_append, List.map_cons, List.map_nil, writesOf_append, writes,
    writesOf_cons, Request.write?, Option.toList_none, List.nil_append, answers_append,
    noAnswers, answers_cons]
  rw [show writesOf [] = [] from rfl, List.append_nil, answer]
  rfl

end Finish

/-! ## Registering a player -/

/-- The path of a player's document or of a phone's entry, in any room. -/
def IsRegistration (path : ResourcePath) : Prop :=
  ∃ room, players room <+: path ∨ phoneToPlayers room <+: path

def phoneFields (player : Player) : Document := .fields [("name", .string player.name)]

def registrationOf (room : Int) (deviceID : Option UUID) (player : Player)
    (playerRef : ResourcePath) : List (ResourcePath × Document) :=
  (playerRef, playerFields player) ::
    deviceID.toList.map fun device =>
      (phoneToPlayers room ++ [device.uuidString], phoneFields player)

section Creation

variable {room playerCount : Int} {player : Player} {deviceID : Option UUID}
  {playerRef : ResourcePath}

theorem distinct_registrationOf
    (named : document? (players room) player.name = some playerRef) :
    ((registrationOf room deviceID player playerRef).map Prod.fst).Nodup := by
  cases deviceID with
  | none => simp [registrationOf]
  | some device =>
      have apart : playerRef ≠ phoneToPlayers room ++ [device.uuidString] := by
        intro same
        have both := subcollection_unique ((document?_eq_some named).symm.trans same)
        exact absurd both.2 (by decide)
      simp [registrationOf, apart]

theorem isRegistration_registrationOf
    (named : document? (players room) player.name = some playerRef) :
    ∀ entry ∈ registrationOf room deviceID player playerRef, IsRegistration entry.1 := by
  intro entry member
  rcases List.mem_cons.mp member with rfl | phone
  · exact ⟨room, .inl ⟨_, (document?_eq_some named).symm⟩⟩
  · rcases List.mem_map.mp phone with ⟨device, _, rfl⟩
    exact ⟨room, .inr ⟨_, rfl⟩⟩

theorem gameRef_not_isRegistration (other : Int) : ¬IsRegistration (gameRef other) := by
  intro ⟨room, below⟩
  rcases below with below | below <;>
    have length := below.length_le <;>
    simp [players, phoneToPlayers, gameRef, games] at length

theorem gameRef_apart_registrationOf
    (named : document? (players room) player.name = some playerRef) (other : Int) :
    ∀ write ∈ setAll (registrationOf room deviceID player playerRef),
      write.path ≠ gameRef other := by
  intro write member same
  rcases List.mem_map.mp member with ⟨entry, inside, rfl⟩
  have registration := isRegistration_registrationOf named entry inside
  rw [show entry.1 = gameRef other from same] at registration
  exact gameRef_not_isRegistration other registration

theorem writes_addPlayer
    (named : document? (players room) player.name = some playerRef) :
    (addPlayer deviceID room player).requests.filterMap Request.write? =
      setAll (registrationOf room deviceID player playerRef) := by
  rw [addPlayer_requests_eq, named]
  cases deviceID <;> cases player.image.pngData <;> rfl

theorem read_last_of_registrable (registrable : Registrable deviceID room player) :
    ∃ front, (addPlayer deviceID room player).requests =
        front ++ [.getDocument (gameRef room) (.addPlayer (gameRef room))] ∧
      ∀ request ∈ front, request.isRead = false := by
  rcases registrable_iff.mp registrable with ⟨⟨playerRef, named⟩, ⟨device, rfl⟩, data, png⟩
  refine ⟨[
    .write (.setData playerRef (playerFields player)),
    .write (.setData (phoneToPlayers room ++ [device.uuidString]) (phoneFields player)),
    .putData (photoRef room player.name) data], addPlayer_requests named png, ?_⟩
  simp [Request.isRead]

theorem not_isRead_of_not_registrable (trapped : ¬Registrable deviceID room player) :
    ∀ request ∈ (addPlayer deviceID room player).requests, request.isRead = false := by
  rw [addPlayer_requests_eq]
  split
  · simp
  · simp [Request.isRead]
  · simp [Request.isRead]
  · rename_i playerRef device data named png
    exact absurd (registrable_iff.mpr ⟨⟨playerRef, named⟩, ⟨device, rfl⟩, data, png⟩) trapped

theorem counter?_registrationOf
    (named : document? (players room) player.name = some playerRef) (other : Int)
    (store : Firestore) :
    counter? other (applyAll (setAll (registrationOf room deviceID player playerRef)) store) =
      counter? other store :=
  counter?_applyAll (gameRef_apart_registrationOf named other) store

theorem mem_setData {path target : ResourcePath} {data : Document} {store : Firestore} :
    path ∈ (Write.setData target data).apply store ↔ path = target ∨ path ∈ store :=
  AList.mem_insert store

theorem mem_applyAll_registrationOf
    (named : document? (players room) player.name = some playerRef) (id : String)
    (store : Firestore) :
    players room ++ [id] ∈
        applyAll (setAll (registrationOf room deviceID player playerRef)) store ↔
      playerID? room player = some id ∨ players room ++ [id] ∈ store := by
  have written : players room ++ [id] ∈
      (Write.setData playerRef (playerFields player)).apply store ↔
      playerID? room player = some id ∨ players room ++ [id] ∈ store := by
    rw [mem_setData, playerID?_eq_some, named, Option.some.injEq, eq_comm]
  rw [registrationOf, setAll, List.map_cons, applyAll_cons, ← written, ← AList.lookup_isSome,
    ← AList.lookup_isSome, lookup_applyAll_of_ne]
  intro write member
  rcases List.mem_map.mp member with ⟨entry, inside, rfl⟩
  rcases List.mem_map.mp inside with ⟨device, _, rfl⟩
  exact phoneToPlayers_ne_player room device.uuidString id

/-- A call that registers a player after other writes: all its writes in their order
and then, if it runs to its end, the counter. -/
theorem finish_registering {operation : Operation} {front : List Write} {count : Int}
    (call : CallId) (own : operation.room = room) (changes : operation.change = -1)
    (completes : operation.completion = some (.addPlayer (gameRef room)))
    (named : document? (players room) player.name = some playerRef) {store : Firestore}
    (counted : counter? room (applyAll front store) = some count) :
    finish ((front.map Request.write ++ (addPlayer deviceID room player).requests).map
        (Pending.mk call operation)) store =
      if Registrable deviceID room player then
        (Write.updateData (gameRef room) (countFields (count - 1))).apply
          (applyAll (front ++ setAll (registrationOf room deviceID player playerRef)) store)
      else applyAll (front ++ setAll (registrationOf room deviceID player playerRef)) store := by
  subst own
  have writes : (front.map Request.write ++
      (addPlayer deviceID operation.room player).requests).filterMap Request.write? =
      front ++ setAll (registrationOf operation.room deviceID player playerRef) := by
    rw [List.filterMap_append, writes_addPlayer named]
    simp [List.filterMap_map, Function.comp_def, Request.write?]
  have recounted : counter? operation.room
      (applyAll (front ++ setAll (registrationOf operation.room deviceID player playerRef))
        store) = some count := by
    rw [applyAll_append, counter?_registrationOf named, counted]
  split
  · rename_i registrable
    rcases read_last_of_registrable registrable with ⟨asked, requests, notRead⟩
    have shape : front.map Request.write ++
        (addPlayer deviceID operation.room player).requests =
        (front.map Request.write ++ asked) ++
          [.getDocument (gameRef operation.room) (.addPlayer (gameRef operation.room))] := by
      rw [requests, List.append_assoc]
    have noWrite : List.filterMap Request.write? [.getDocument (gameRef operation.room)
        (.addPlayer (gameRef operation.room))] = [] := rfl
    rw [shape, List.filterMap_append, noWrite, List.append_nil] at writes
    rw [shape, finish_of_read operation.room call operation _ ?_ (.reads completes)
      (by rw [changes]; decide) (writes ▸ recounted), writes, changes]
    · rfl
    · intro request member
      rcases List.mem_append.mp member with written | inside
      · rcases List.mem_map.mp written with ⟨write, _, rfl⟩
        rfl
      · exact notRead request inside
  · rename_i trapped
    rw [finish_without_read]
    · rw [← writes]
      simp [writesOf, List.filterMap_map, Function.comp_def]
    · intro pending member
      rcases List.mem_map.mp member with ⟨request, inside, rfl⟩
      rcases List.mem_append.mp inside with written | asked
      · rcases List.mem_map.mp written with ⟨write, _, rfl⟩
        rfl
      · exact not_isRead_of_not_registrable trapped request asked

end Creation

end AssassinGame
