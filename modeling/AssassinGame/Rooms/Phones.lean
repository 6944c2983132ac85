import AssassinGame.Foundation.Pairing
import AssassinGame.Rooms.Accounting
import AssassinGame.Rooms.Collision

/-! # The phones of a room and its players

`addPlayer` writes a player's document and the entry of its phone side by side;
`removePlayer` takes the document away and leaves the entry. Entries and documents
stay paired exactly as long as each call that adds a player pairs a new phone with a new
player, or repeats what is there, and no call removes anybody.
-/

namespace AssassinGame

open AssassinGame.Action Transition World Pairing

def owner? (room : Int) (store : Firestore) (device : String) : Option String :=
  (store.lookup (phoneToPlayers room ++ [device])).bind fun entry =>
    (entry.string? "name").bind fun name =>
      (document? (players room) name).bind (documentID? (players room))

def phonesOf (room : Int) (store : Firestore) : Set String :=
  {device | phoneToPlayers room ++ [device] ∈ store}

def playersOf (room : Int) (store : Firestore) : Set (Option String) :=
  {target | ∃ id, target = some id ∧ players room ++ [id] ∈ store}

@[simp] theorem mem_phonesOf {room : Int} {store : Firestore} {device : String} :
    device ∈ phonesOf room store ↔ phoneToPlayers room ++ [device] ∈ store := Iff.rfl

@[simp] theorem some_mem_playersOf {room : Int} {store : Firestore} {id : String} :
    some id ∈ playersOf room store ↔ players room ++ [id] ∈ store := by
  simp [playersOf]

@[simp] theorem none_notMem_playersOf {room : Int} {store : Firestore} :
    none ∉ playersOf room store := by
  simp [playersOf]

/-- Every entry names an existing player, no two entries name the same player, and every
player is named by an entry. -/
def PhonesAgree (room : Int) (store : Firestore) : Prop :=
  Set.BijOn (owner? room store) (phonesOf room store) (playersOf room store)

theorem phonesAgree_empty (room : Int) : PhonesAgree room ∅ := by
  have noPhones : phonesOf room ∅ = ∅ :=
    Set.eq_empty_of_forall_notMem fun device => AList.notMem_empty _
  have noPlayers : playersOf room ∅ = ∅ :=
    Set.eq_empty_of_forall_notMem fun target inside => by
      rcases inside with ⟨id, _, member⟩
      exact AList.notMem_empty _ member
  rw [PhonesAgree, noPhones, noPlayers]
  exact Set.bijOn_empty _

/-- A call of `addPlayer` writes nothing; or its phone has no identifier and its name names
nobody new; or it names a player who is paired with its phone already, or who is as new
as the phone is. A call of `removePlayer` names no player. -/
def Pairs (world : World) : Event → Prop
  | .call _ (.addPlayer none room player) =>
      ∀ id ∈ playerID? room player, players room ++ [id] ∈ world.firestore
  | .call _ (.addPlayer (some device) room player) =>
      (document? (players room) player.name).isSome → ∃ id ∈ playerID? room player,
        (phoneToPlayers room ++ [device.uuidString] ∈ world.firestore ∧
          owner? room world.firestore device.uuidString = some id) ∨
        (phoneToPlayers room ++ [device.uuidString] ∉ world.firestore ∧
          players room ++ [id] ∉ world.firestore)
  | .call _ (.removePlayer room player) => ¬NamesPresent world.firestore room player
  | _ => True

instance (world : World) : ∀ event, Decidable (Pairs world event)
  | .call _ (.addPlayer none room player) =>
      inferInstanceAs (Decidable (∀ id ∈ playerID? room player, _))
  | .call _ (.addPlayer (some device) room player) =>
      inferInstanceAs (Decidable ((document? (players room) player.name).isSome →
        ∃ id ∈ playerID? room player,
          (phoneToPlayers room ++ [device.uuidString] ∈ world.firestore ∧
            owner? room world.firestore device.uuidString = some id) ∨
          (phoneToPlayers room ++ [device.uuidString] ∉ world.firestore ∧
            players room ++ [id] ∉ world.firestore)))
  | .call _ (.removePlayer room player) =>
      inferInstanceAs (Decidable (¬NamesPresent world.firestore room player))
  | .call _ (.addGame _) | .call _ (.addKillshot _ _ _ _ _) | .call _ (.uploadKillshotPic _ _)
  | .call _ (.uploadKillshotName _ _) | .call _ (.imagePickerController _ _)
  | .call _ (.createRoom _ _ _ _) | .perform _ _ => inferInstanceAs (Decidable True)

/-! ## What a registration does to the pairs -/

section Registration

variable {room : Int} {player : Player} {deviceID : Option UUID} {playerRef : ResourcePath}
  {before after : Firestore}

theorem mem_players_of_registered
    (named : document? (players room) player.name = some playerRef)
    (registered : Registered room deviceID player playerRef before after) (id : String) :
    players room ++ [id] ∈ after ↔
      playerID? room player = some id ∨ players room ++ [id] ∈ before := by
  rw [← AList.lookup_isSome, registered _ (gameRef_ne_player room room id).symm,
    AList.lookup_isSome]
  exact mem_applyAll_registrationOf named id before

theorem lookup_phone_of_registered
    (named : document? (players room) player.name = some playerRef)
    (registered : Registered room deviceID player playerRef before after) (device : String) :
    after.lookup (phoneToPlayers room ++ [device]) =
      if deviceID.map UUID.uuidString = some device then some (phoneFields player)
      else before.lookup (phoneToPlayers room ++ [device]) := by
  rw [registered _ (gameRef_ne_phone room room device).symm]
  split
  · rename_i own
    rcases Option.map_eq_some_iff.mp own with ⟨identified, rfl, rfl⟩
    have written : (phoneToPlayers room ++ [identified.uuidString], phoneFields player) ∈
        registrationOf room (some identified) player playerRef :=
      List.mem_cons_of_mem _ List.mem_cons_self
    exact lookup_setAll_of_mem (distinct_registrationOf named) written before
  · rename_i other
    apply lookup_applyAll_of_ne
    intro write member same
    rcases List.mem_map.mp member with ⟨entry, inside, rfl⟩
    rcases List.mem_cons.mp inside with rfl | phone
    · have both := subcollection_unique ((document?_eq_some named).symm.trans same)
      exact absurd both.2 (by decide)
    · rcases List.mem_map.mp phone with ⟨identified, given, rfl⟩
      apply other
      rw [Option.mem_toList.mp given]
      simpa [Write.path] using same

/-! ### The phones after a registration -/

theorem owner?_phoneFields (store : Firestore) {device : String}
    (found : store.lookup (phoneToPlayers room ++ [device]) = some (phoneFields player)) :
    owner? room store device = playerID? room player := by
  have name : (phoneFields player).string? "name" = some player.name :=
    Document.string?_fields_head ..
  rw [owner?, found, Option.bind_some, name, Option.bind_some, playerID?]

theorem phones_congr
    (same : ∀ device, after.lookup (phoneToPlayers room ++ [device]) =
      before.lookup (phoneToPlayers room ++ [device])) :
    owner? room after = owner? room before ∧ phonesOf room after = phonesOf room before := by
  constructor
  · funext device
    rw [owner?, owner?, same]
  · ext device
    rw [mem_phonesOf, mem_phonesOf, ← AList.lookup_isSome, same, AList.lookup_isSome]

theorem phones_of_registered {device : UUID}
    (named : document? (players room) player.name = some playerRef)
    (registered : Registered room (some device) player playerRef before after) :
    owner? room after = Function.update (owner? room before) device.uuidString
        (playerID? room player) ∧
      phonesOf room after = insert device.uuidString (phonesOf room before) := by
  have found := lookup_phone_of_registered named registered
  simp only [Option.map_some, Option.some.injEq] at found
  constructor
  · funext other
    by_cases own : device.uuidString = other
    · subst own
      rw [Function.update_self]
      exact owner?_phoneFields after (by rw [found, if_pos rfl])
    · rw [Function.update_of_ne (Ne.symm own), owner?, owner?, found, if_neg own]
  · ext other
    rw [Set.mem_insert_iff, mem_phonesOf, mem_phonesOf, ← AList.lookup_isSome, found]
    by_cases own : device.uuidString = other
    · simp [own]
    · simp [own, Ne.symm own, AList.lookup_isSome]

theorem playersOf_of_registered
    (members : ∀ id, players room ++ [id] ∈ after ↔
      playerID? room player = some id ∨ players room ++ [id] ∈ before) :
    playersOf room after = match playerID? room player with
      | some id => insert (some id) (playersOf room before)
      | none => playersOf room before := by
  ext target
  cases target with
  | none => split <;> simp
  | some other =>
      rw [some_mem_playersOf, members]
      split
      · rename_i id direct
        simp [direct, eq_comm]
      · rename_i deep
        simp [deep]

theorem phonesAgree_registered_iff (agree : PhonesAgree room before)
    (named : document? (players room) player.name = some playerRef)
    (registered : Registered room deviceID player playerRef before after) :
    PhonesAgree room after ↔ match deviceID with
      | none => ∀ id ∈ playerID? room player, players room ++ [id] ∈ before
      | some device => ∃ id ∈ playerID? room player,
          (phoneToPlayers room ++ [device.uuidString] ∈ before ∧
            owner? room before device.uuidString = some id) ∨
          (phoneToPlayers room ++ [device.uuidString] ∉ before ∧
            players room ++ [id] ∉ before) := by
  have targets := playersOf_of_registered (mem_players_of_registered named registered)
  cases deviceID with
  | none =>
      have same := lookup_phone_of_registered named registered
      simp only [Option.map_none, reduceCtorEq, if_false] at same
      rcases phones_congr same with ⟨entries, phones⟩
      rw [PhonesAgree, entries, phones, targets]
      cases direct : playerID? room player with
      | none => exact iff_of_true agree fun _ none' => by cases none'
      | some id =>
          rw [bijOn_add_iff agree]
          simp
  | some device =>
      rcases phones_of_registered named registered with ⟨entries, phones⟩
      rw [PhonesAgree, entries, phones, targets]
      cases direct : playerID? room player with
      | none =>
          refine iff_of_false (not_bijOn_update none_notMem_playersOf _) ?_
          rintro ⟨id, none', _⟩
          cases none'
      | some id =>
          rw [bijOn_update_iff agree]
          simp

end Registration

theorem phonesAgree_removed_iff {room : Int} {player : Player} {before after : Firestore}
    (agree : PhonesAgree room before)
    (phones : ∀ device, after.lookup (phoneToPlayers room ++ [device]) =
      before.lookup (phoneToPlayers room ++ [device]))
    (members : ∀ id, players room ++ [id] ∈ after ↔
      playerID? room player ≠ some id ∧ players room ++ [id] ∈ before) :
    PhonesAgree room after ↔ ¬NamesPresent before room player := by
  rcases phones_congr phones with ⟨entries, listed⟩
  have targets : playersOf room after = playersOf room before \ {playerID? room player} := by
    ext target
    cases target with
    | none => simp
    | some id => simp [members, and_comm, eq_comm]
  rw [PhonesAgree, entries, listed, targets, bijOn_remove_iff agree, not_iff_not]
  constructor
  · rintro ⟨id, direct, present⟩
    exact ⟨id, direct, present⟩
  · rintro ⟨id, direct, present⟩
    exact ⟨id, direct, present⟩

/-! ## Calls one after the other -/

section Calls

variable {world : World} {room : Int} {player : Player} {call : CallId}

theorem registered_addPlayer {playerRef : ResourcePath} (idle : world.outstanding = [])
    (named : document? (players room) player.name = some playerRef)
    (deviceID : Option UUID) (call : CallId) :
    Registered room deviceID player playerRef world.firestore
      (world.issue call (.addPlayer deviceID room player)).outcome := by
  intro path other
  have left := lookup_outcome_of_ne idle (Operation.addPlayer_changes deviceID room player)
    other call
  rw [left, Operation.action, writes_addPlayer named]

theorem phonesAgree_addPlayer_iff (idle : world.outstanding = [])
    (agree : PhonesAgree room world.firestore) (deviceID : Option UUID) :
    PhonesAgree room (world.issue call (.addPlayer deviceID room player)).outcome ↔
      Pairs world (.call call (.addPlayer deviceID room player)) := by
  cases named : document? (players room) player.name with
  | none =>
      have silent : (Operation.addPlayer deviceID room player).action.requests = [] := by
        rw [Operation.action, addPlayer_requests_eq, named]
      rw [outcome_of_idle (outstanding_issue_of_nothing idle call silent)]
      refine iff_of_true agree ?_
      cases deviceID with
      | none => simp [Pairs, playerID?, named]
      | some device => simp [Pairs, named]
  | some playerRef =>
      have registered := registered_addPlayer idle named deviceID call
      rw [phonesAgree_registered_iff agree named registered]
      cases deviceID with
      | none => rfl
      | some device => simp [Pairs, named]

theorem phonesAgree_removePlayer_iff (idle : world.outstanding = [])
    (agree : PhonesAgree room world.firestore) :
    PhonesAgree room (world.issue call (.removePlayer room player)).outcome ↔
      Pairs world (.call call (.removePlayer room player)) := by
  cases named : document? (players room) player.name with
  | none =>
      have silent : (Operation.removePlayer room player).action.requests = [] :=
        removePlayer_requests_of_unnamed named
      rw [outcome_of_idle (outstanding_issue_of_nothing idle call silent)]
      exact iff_of_true agree (by simp [Pairs, NamesPresent, playerID?, named])
  | some playerRef =>
      have requests : (Operation.removePlayer room player).action.requests = _ :=
        removePlayer_requests named
      have left : ∀ path, path ≠ gameRef room →
          (world.issue call (.removePlayer room player)).outcome.lookup path =
            ((Write.delete playerRef).apply world.firestore).lookup path := fun path other => by
        have left := lookup_outcome_of_ne idle (Operation.removePlayer_changes room player)
          other call
        rw [left, requests]
        rfl
      refine phonesAgree_removed_iff agree (fun device => ?_) fun id => ?_
      · rw [left _ (gameRef_ne_phone room room device).symm]
        apply Write.lookup_apply_of_ne
        intro same
        have both := subcollection_unique (same.trans (document?_eq_some named))
        exact absurd both.2 (by decide)
      · exact mem_outcome_removePlayer idle call id

end Calls

theorem decided_phones (room : Int) : Decided room (PhonesAgree room) Pairs where
  call := by
    intro world id operation idle agree sequential
    cases operation with
    | addPlayer deviceID roomNumber player =>
        rcases sequential with ⟨rfl, _⟩
        exact phonesAgree_addPlayer_iff idle agree deviceID
    | removePlayer roomNumber player =>
        rcases sequential with ⟨rfl, _⟩
        exact phonesAgree_removePlayer_iff idle agree
    | addGame | addKillshot | uploadKillshotPic | uploadKillshotName | imagePickerController
    | createRoom => exact sequential.elim
  perform _ _ _ := trivial

/-- Calls of `addPlayer` and `removePlayer` for a room are made one after the other. The
phones agree with the players after every one of them if and only if they did before the
first and each call keeps the pairs. -/
theorem phones_agree_in_turn {room : Int} {firestore : Firestore} {storage : Storage}
    {events : List Event} {final : World}
    (performed : run World.step (World.start firestore storage) events = some final)
    (sequential : Meets World.step (Sequential room) (World.start firestore storage) events)
    (done : final.outstanding = []) :
    Throughout World.step (AtRest (PhonesAgree room)) (World.start firestore storage) events ↔
      PhonesAgree room firestore ∧
        Meets World.step Pairs (World.start firestore storage) events := by
  have idle : (World.start firestore storage).outstanding = [] := rfl
  have solo := Solo.of_idle (Orderly.start firestore storage) idle
  have here : (World.start firestore storage).outcome = firestore := outcome_of_idle idle
  constructor
  · intro throughout
    have agree := outcome_of_throughout solo sequential performed done throughout
    exact ⟨here ▸ agree, (throughout_iff_of_decided (decided_phones room) solo sequential
      performed done agree).mp throughout⟩
  · intro ⟨agree, meets⟩
    exact (throughout_iff_of_decided (decided_phones room) solo sequential performed done
      (here.symm ▸ agree)).mpr meets

def threeJoins : List Event :=
  (World.start ∅ ∅).follow [
    .call 0 (join 7 "ann"), .answer 0, .answer 0, .answer 0, .answer 0,
    .call 1 (.addPlayer (some ⟨"B3C9", by decide⟩) 7 (Player.init "bob" someImage)),
    .answer 0, .answer 0, .answer 0, .answer 0,
    .call 2 (join 7 "ann"), .answer 0, .answer 0, .answer 0, .answer 0]

theorem phones_agree_in_turn_threeJoins :
    Throughout World.step (AtRest (PhonesAgree 7)) (World.start ∅ ∅) threeJoins := by
  have ends : (run World.step (World.start ∅ ∅) threeJoins).any
      (fun final => final.outstanding = []) = true := by decide
  rcases run_ends ends with ⟨final, performed, done⟩
  exact (phones_agree_in_turn performed (by decide) done).mpr
    ⟨phonesAgree_empty 7, by decide⟩

def joinLeave : List Event :=
  (World.start ∅ ∅).follow [
    .call 0 (join 7 "ann"), .answer 0, .answer 0, .answer 0, .answer 0,
    .call 1 (.removePlayer 7 (Player.init "ann" someImage)), .answer 0, .answer 0]

/-- The entry of the phone then names a player who does not exist. -/
theorem removed_player_keeps_phone :
    ∃ final, run World.step (World.start ∅ ∅) joinLeave = some final ∧
      Meets World.step (Sequential 7) (World.start ∅ ∅) joinLeave ∧
      final.outstanding = [] ∧ ¬PhonesAgree 7 final.firestore := by
  have ends : (run World.step (World.start ∅ ∅) joinLeave).any
      (fun final => final.outstanding = [] ∧
        phoneToPlayers 7 ++ [somePhone.uuidString] ∈ final.firestore ∧
        owner? 7 final.firestore somePhone.uuidString = some "ann" ∧
        players 7 ++ ["ann"] ∉ final.firestore) = true := by decide
  rcases run_ends ends with ⟨final, performed, done, listed, names, missing⟩
  refine ⟨final, performed, by decide, done, fun agree => missing ?_⟩
  have target := agree.mapsTo (mem_phonesOf.mpr listed)
  rw [names] at target
  exact some_mem_playersOf.mp target

end AssassinGame
