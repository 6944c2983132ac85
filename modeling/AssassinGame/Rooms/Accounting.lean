import AssassinGame.Rooms.Registering

/-! # Accounting, one call after the other

The counter moves by one for every call that runs to its end, whether or not the
call changes the set of player documents. Counter and players therefore stay in
step exactly as long as each `addPlayer` that runs to its end creates a document,
each `removePlayer` that does deletes one, and no call that traps does either.
-/

namespace AssassinGame

open AssassinGame.Action Transition World

/-- The counter shows how many players are missing. -/
def Accounts (game : Game) (store : Firestore) : Prop :=
  counter? game.roomNumber store =
    some (game.playerCount - (store.getDocuments (players game.roomNumber)).length)

/-- The event calls `addPlayer` or `removePlayer` for the room while nothing is
under way, or continues a call. -/
def Sequential (room : Int) (world : World) : Event → Prop
  | .call _ (.addPlayer _ roomNumber _) => roomNumber = room ∧ world.outstanding = []
  | .call _ (.removePlayer roomNumber _) => roomNumber = room ∧ world.outstanding = []
  | .call _ _ => False
  | .perform _ _ => True

instance (room : Int) (world : World) : ∀ event, Decidable (Sequential room world event)
  | .call _ (.addPlayer _ roomNumber _) | .call _ (.removePlayer roomNumber _) =>
      inferInstanceAs (Decidable (roomNumber = room ∧ world.outstanding = []))
  | .call _ (.addGame _) | .call _ (.addKillshot _ _ _ _ _) | .call _ (.uploadKillshotPic _ _)
  | .call _ (.uploadKillshotName _ _) | .call _ (.imagePickerController _ _)
  | .call _ (.createRoom _ _ _ _) => inferInstanceAs (Decidable False)
  | .perform _ _ => inferInstanceAs (Decidable True)

/-- The player's name names, directly among the players, a missing document. -/
def NamesMissing (store : Firestore) (room : Int) (player : Player) : Prop :=
  ∃ id ∈ playerID? room player, players room ++ [id] ∉ store

def NamesPresent (store : Firestore) (room : Int) (player : Player) : Prop :=
  ∃ id ∈ playerID? room player, players room ++ [id] ∈ store

instance (store : Firestore) (room : Int) (player : Player) :
    Decidable (NamesMissing store room player) :=
  inferInstanceAs (Decidable (∃ id ∈ playerID? room player, _))

instance (store : Firestore) (room : Int) (player : Player) :
    Decidable (NamesPresent store room player) :=
  inferInstanceAs (Decidable (∃ id ∈ playerID? room player, _))

/-- A call of `addPlayer` can run to its end if and only if it names, directly among
the players, a document that does not exist; a call of `removePlayer` if and only
if it names one that does. -/
def Exact (world : World) : Event → Prop
  | .call _ (.addPlayer deviceID room player) =>
      Registrable deviceID room player ↔
        NamesMissing world.firestore room player
  | .call _ (.removePlayer room player) =>
      (document? (players room) player.name).isSome ↔
        NamesPresent world.firestore room player
  | _ => True

instance (world : World) : ∀ event, Decidable (Exact world event)
  | .call _ (.addPlayer deviceID room player) =>
      inferInstanceAs (Decidable (Registrable deviceID room player ↔
        NamesMissing world.firestore room player))
  | .call _ (.removePlayer room player) =>
      inferInstanceAs (Decidable ((document? (players room) player.name).isSome ↔
        NamesPresent world.firestore room player))
  | .call _ (.addGame _) | .call _ (.addKillshot _ _ _ _ _) | .call _ (.uploadKillshotPic _ _)
  | .call _ (.uploadKillshotName _ _) | .call _ (.imagePickerController _ _)
  | .call _ (.createRoom _ _ _ _) | .perform _ _ => inferInstanceAs (Decidable True)

/-! ## What a call by itself leaves behind -/

section Outcome

theorem lookup_outcome_of_ne {world : World} {operation : Operation} {path : ResourcePath}
    (idle : world.outstanding = []) (changes : operation.change ≠ 0)
    (other : path ≠ gameRef operation.room) (call : CallId) :
    (world.issue call operation).outcome.lookup path =
      (applyAll (operation.action.requests.filterMap Request.write?)
        world.firestore).lookup path := by
  have writes : writesOf (operation.action.requests.map (Pending.mk call operation)) =
      operation.action.requests.filterMap Request.write? := by
    simp [writesOf, List.filterMap_map]
  rw [outcome_issue idle, finish, writes, lookup_applyAll_of_ne]
  intro write inside
  rcases List.mem_filterMap.mp inside with ⟨answer, given, writes⟩
  rcases List.mem_flatMap.mp given with ⟨pending, asked, follows⟩
  rcases List.mem_map.mp asked with ⟨request, member, rfl⟩
  have answered := (answered_of_mem_followUps (.inl (asked_of_mem_requests member)) follows).2.2
  rcases answer with ⟨_, _, request⟩
  change Answered operation request at answered
  cases answered with
  | counts =>
      cases writes
      exact other.symm
  | files _ unchanged => exact absurd unchanged changes

variable {world : World} {room count : Int} {player : Player}

theorem mem_outcome_addPlayer (idle : world.outstanding = []) (call : CallId)
    (deviceID : Option UUID) (id : String) :
    players room ++ [id] ∈ (world.issue call (.addPlayer deviceID room player)).outcome ↔
      playerID? room player = some id ∨ players room ++ [id] ∈ world.firestore := by
  have left := lookup_outcome_of_ne idle (Operation.addPlayer_changes deviceID room player)
    (gameRef_ne_player room room id).symm call
  rw [← AList.lookup_isSome, left, AList.lookup_isSome]
  cases named : document? (players room) player.name with
  | none =>
      rw [Operation.action, addPlayer_requests_eq, named]
      simp [playerID?_eq_some, named]
  | some playerRef =>
      rw [Operation.action, writes_addPlayer named]
      exact mem_applyAll_registrationOf named id world.firestore

theorem mem_outcome_removePlayer (idle : world.outstanding = []) (call : CallId)
    (id : String) :
    players room ++ [id] ∈ (world.issue call (.removePlayer room player)).outcome ↔
      playerID? room player ≠ some id ∧ players room ++ [id] ∈ world.firestore := by
  have left := lookup_outcome_of_ne idle (Operation.removePlayer_changes room player)
    (gameRef_ne_player room room id).symm call
  rw [← AList.lookup_isSome, left, AList.lookup_isSome]
  cases named : document? (players room) player.name with
  | none =>
      rw [Operation.action, removePlayer_requests_of_unnamed named]
      simp [playerID?_eq_some, named]
  | some playerRef =>
      rw [Operation.action, removePlayer_requests named]
      change players room ++ [id] ∈ (Write.delete playerRef).apply world.firestore ↔ _
      rw [Write.apply, AList.mem_erase, Ne, Ne, playerID?_eq_some, named, Option.some.injEq,
        eq_comm]

theorem counter?_outcome_addPlayer (idle : world.outstanding = [])
    (counted : counter? room world.firestore = some count) (call : CallId)
    (deviceID : Option UUID) :
    counter? room (world.issue call (.addPlayer deviceID room player)).outcome =
      some (count - if Registrable deviceID room player then 1 else 0) := by
  rw [outcome_issue idle]
  cases named : document? (players room) player.name with
  | none =>
      have trapped : ¬Registrable deviceID room player := fun registrable => by
        simpa [named] using registrable.1
      rw [if_neg trapped, sub_zero, Operation.action, addPlayer_requests_eq, named]
      exact counted
  | some playerRef =>
      have finished := @finish_registering room player deviceID playerRef
        (.addPlayer deviceID room player) [] count call rfl rfl rfl named world.firestore counted
      have recounted := (@counter?_registrationOf room player deviceID playerRef named room
        world.firestore).trans counted
      rw [List.map_nil, List.nil_append, List.nil_append] at finished
      rw [Operation.action, finished]
      split
      · exact counter?_update recounted _
      · rw [sub_zero]
        exact recounted

theorem counter?_outcome_removePlayer (idle : world.outstanding = [])
    (counted : counter? room world.firestore = some count) (call : CallId) :
    counter? room (world.issue call (.removePlayer room player)).outcome =
      some (count + if (document? (players room) player.name).isSome then 1 else 0) := by
  rw [outcome_issue idle]
  by_cases names : (document? (players room) player.name).isSome
  · rcases Option.isSome_iff_exists.mp names with ⟨playerRef, named⟩
    have requests : (Operation.removePlayer room player).action.requests =
        [.write (.delete playerRef)] ++
          [.getDocument (gameRef room) (.removePlayer (gameRef room))] :=
      removePlayer_requests named
    have same : counter? room (applyAll [.delete playerRef] world.firestore) = some count := by
      rw [counter?_applyAll _ world.firestore, counted]
      intro write only
      rw [List.mem_singleton.mp only]
      exact (gameRef_ne_child named).symm
    have finished := finish_of_read room call (.removePlayer room player)
      [.write (.delete playerRef)] (by simp [Request.isRead]) (.reads rfl)
      (Operation.removePlayer_changes room player) same
    rw [if_pos names, requests, finished]
    exact counter?_update same _
  · have unnamed : document? (players room) player.name = none :=
      Option.not_isSome_iff_eq_none.mp names
    have requests : (Operation.removePlayer room player).action.requests = [] :=
      removePlayer_requests_of_unnamed unnamed
    rw [if_neg names, requests, add_zero]
    exact counted

end Outcome

/-! ## What a call does to the account -/

section Step

variable {game : Game} {world : World}

theorem length_getDocuments_added {room : Int} {player : Player} {before after : Firestore}
    (members : ∀ id, players room ++ [id] ∈ after ↔
      playerID? room player = some id ∨ players room ++ [id] ∈ before) :
    (after.getDocuments (players room)).length = (before.getDocuments (players room)).length +
      if NamesMissing before room player then 1 else 0 := by
  split
  · rename_i fresh
    rcases fresh with ⟨added, named, missing⟩
    apply Firestore.length_getDocuments_succ missing
    intro id
    rw [members, Option.mem_def.mp named, Option.some.injEq, eq_comm]
  · rename_i stale
    apply Firestore.length_getDocuments_congr
    intro id
    rw [members, or_iff_right_iff_imp]
    intro named
    by_contra missing
    exact stale ⟨id, named, missing⟩

theorem length_getDocuments_removed {room : Int} {player : Player} {before after : Firestore}
    (members : ∀ id, players room ++ [id] ∈ after ↔
      playerID? room player ≠ some id ∧ players room ++ [id] ∈ before) :
    (after.getDocuments (players room)).length +
        (if NamesPresent before room player then 1 else 0) =
      (before.getDocuments (players room)).length := by
  split
  · rename_i hit
    rcases hit with ⟨removed, named, present⟩
    have gone : players room ++ [removed] ∉ after := fun member =>
      ((members removed).mp member).1 named
    refine (Firestore.length_getDocuments_succ gone fun id => ?_).symm
    rw [members, Option.mem_def.mp named, Ne, Option.some.injEq]
    by_cases same : id = removed
    · subst same
      simp [present]
    · simp [same, Ne.symm same]
  · rename_i missed
    apply Firestore.length_getDocuments_congr
    intro id
    rw [members, and_iff_right_iff_imp]
    intro present named
    exact missed ⟨id, named, present⟩

theorem indicator_eq_iff (left right : Prop) [Decidable left] [Decidable right] :
    ((if left then 1 else 0 : Int) = if right then 1 else 0) ↔ (left ↔ right) := by
  by_cases holds : left <;> by_cases other : right <;> simp [holds, other]

theorem accounts_issue (idle : world.outstanding = [])
    (accounts : Accounts game world.firestore) {call : CallId} {operation : Operation}
    (sequential : Sequential game.roomNumber world (.call call operation)) :
    Accounts game (world.issue call operation).outcome ↔
      Exact world (.call call operation) := by
  cases operation with
  | addPlayer deviceID room player =>
      rcases sequential with ⟨rfl, _⟩
      have counted := @counter?_outcome_addPlayer _ _ _ player idle accounts call deviceID
      have documents := length_getDocuments_added
        (@mem_outcome_addPlayer _ game.roomNumber player idle call deviceID)
      rw [Accounts, counted, documents, Option.some.injEq, Exact,
        ← indicator_eq_iff (Registrable _ _ _)]
      push_cast
      omega
  | removePlayer room player =>
      rcases sequential with ⟨rfl, _⟩
      have counted := @counter?_outcome_removePlayer _ _ _ player idle accounts call
      have documents := length_getDocuments_removed
        (@mem_outcome_removePlayer _ game.roomNumber player idle call)
      rw [Accounts, counted, ← documents, Option.some.injEq, Exact,
        ← indicator_eq_iff (Option.isSome _ = true)]
      push_cast
      omega
  | addGame | addKillshot | uploadKillshotPic | uploadKillshotName | imagePickerController
  | createRoom => exact sequential.elim

end Step

/-! ## What a run of calls does to the account -/

/-- The property holds of the documents whenever nothing is under way. -/
def AtRest (property : Firestore → Prop) (world : World) : Prop :=
  world.outstanding = [] → property world.firestore

section Runs

variable {world next final : World} {events : List Event}

theorem World.Solo.step {room : Int} {event : Event} (solo : world.Solo)
    (sequential : Sequential room world event) (stepped : world.step event = some next) :
    next.Solo := by
  have orderly := solo.orderly.step stepped
  rcases step_cases stepped with
    ⟨id, operation, rfl, _, rfl⟩ | ⟨pending, killerTarget, rfl, ready, rfl⟩
  · cases operation with
    | addPlayer => exact Solo.issue sequential.2 (Operation.addPlayer_changes _ _ _) orderly
    | removePlayer => exact Solo.issue sequential.2 (Operation.removePlayer_changes _ _) orderly
    | addGame | addKillshot | uploadKillshotPic | uploadKillshotName
    | imagePickerController | createRoom => exact sequential.elim
  · exact solo.perform ready orderly

theorem Sequential.idle {room : Int} {id : CallId} {operation : Operation}
    (sequential : Sequential room world (.call id operation)) : world.outstanding = [] := by
  cases operation with
  | addPlayer | removePlayer => exact sequential.2
  | addGame | addKillshot | uploadKillshotPic | uploadKillshotName | imagePickerController
  | createRoom => exact sequential.elim

theorem outcome_of_throughout {room : Int} {property : Firestore → Prop} (solo : world.Solo)
    (sequential : Meets World.step (Sequential room) world events)
    (performed : run World.step world events = some final) (done : final.outstanding = [])
    (throughout : Throughout World.step (AtRest property) world events) :
    property world.outcome := by
  induction events generalizing world with
  | nil =>
      have same : world = final := Option.some.inj performed
      subst same
      rw [outcome_of_idle done]
      exact throughout done
  | cons event events induction =>
      rcases run_cons_eq_some.mp performed with ⟨next, stepped, rest⟩
      have onward := (throughout_cons stepped).mp throughout
      rcases step_cases stepped with
        ⟨id, operation, rfl, _, rfl⟩ | ⟨pending, killerTarget, rfl, ready, rfl⟩
      · have idle := sequential.head.idle
        rw [outcome_of_idle idle]
        exact onward.1 idle
      · rw [← solo.outcome_perform ready killerTarget]
        exact induction (solo.step sequential.head stepped) (sequential.tail stepped) rest
          onward.2

/-- While the property holds, a call by itself leads to a store in which it holds exactly
under the condition; continuing a call needs none. -/
structure Decided (room : Int) (property : Firestore → Prop)
    (condition : World → Event → Prop) : Prop where
  call : ∀ {world : World} {id : CallId} {operation : Operation}, world.outstanding = [] →
    property world.firestore → Sequential room world (.call id operation) →
    (property (world.issue id operation).outcome ↔ condition world (.call id operation))
  perform : ∀ (world : World) (pending : Pending) (killerTarget : Option Player),
    condition world (.perform pending killerTarget)

theorem throughout_iff_of_decided {room : Int} {property : Firestore → Prop}
    {condition : World → Event → Prop} (decided : Decided room property condition)
    (solo : world.Solo) (sequential : Meets World.step (Sequential room) world events)
    (performed : run World.step world events = some final) (done : final.outstanding = [])
    (holds : property world.outcome) :
    Throughout World.step (AtRest property) world events ↔
      Meets World.step condition world events := by
  induction events generalizing world with
  | nil =>
      have here : AtRest property world := fun idle => by
        rw [← outcome_of_idle idle]
        exact holds
      exact iff_of_true here trivial
  | cons event events induction =>
      rcases run_cons_eq_some.mp performed with ⟨next, stepped, rest⟩
      have nextSolo := solo.step sequential.head stepped
      have nextSequential := sequential.tail stepped
      rw [throughout_cons stepped, meets_cons stepped]
      rcases step_cases stepped with
        ⟨id, operation, rfl, _, rfl⟩ | ⟨pending, killerTarget, rfl, ready, rfl⟩
      · have idle := sequential.head.idle
        rw [outcome_of_idle idle] at holds
        have issued := decided.call idle holds sequential.head
        constructor
        · intro throughout
          have right := outcome_of_throughout nextSolo nextSequential rest done throughout.2
          exact ⟨issued.mp right,
            (induction nextSolo nextSequential rest right).mp throughout.2⟩
        · intro meets
          have right := issued.mpr meets.1
          exact ⟨fun _ => holds,
            (induction nextSolo nextSequential rest right).mpr meets.2⟩
      · have busy : AtRest property world := by
          intro idle
          rw [World.Ready, idle] at ready
          exact absurd ready.1 List.not_mem_nil
        rw [← solo.outcome_perform ready killerTarget] at holds
        have onward := induction nextSolo nextSequential rest holds
        exact ⟨fun throughout => ⟨decided.perform .., onward.mp throughout.2⟩,
          fun meets => ⟨busy, onward.mpr meets.2⟩⟩

theorem decided_accounts (game : Game) : Decided game.roomNumber (Accounts game) Exact where
  call idle accounts sequential := accounts_issue idle accounts sequential
  perform _ _ _ := trivial

end Runs

/-- A room is opened and calls of `addPlayer` and `removePlayer` follow, each
completing before the next begins. The counter shows how many players are missing
after every one of them if and only if no players were there when the room was
opened and every call is exact. -/
theorem counter_accounts_in_turn {id : CallId} {game : Game} {firestore : Firestore}
    {storage : Storage} {events : List Event} {final : World}
    (performed : run World.step (World.created id game firestore storage) events = some final)
    (sequential : Meets World.step (Sequential game.roomNumber)
      (World.created id game firestore storage) events)
    (done : final.outstanding = []) :
    Throughout World.step (AtRest fun store => counter? game.roomNumber store = some
        (game.playerCount - (store.getDocuments (players game.roomNumber)).length))
      (World.created id game firestore storage) events ↔
    firestore.getDocuments (players game.roomNumber) = [] ∧
      Meets World.step Exact (World.created id game firestore storage) events := by
  have idle := created_outstanding id game firestore storage
  have solo := Solo.of_idle
    (@orderly_openedBy (.addGame game) game rfl id firestore storage) idle
  have unchanged : ((World.created id game firestore storage).firestore.getDocuments
      (players game.roomNumber)).length =
      (firestore.getDocuments (players game.roomNumber)).length := by
    apply Firestore.length_getDocuments_congr
    intro other
    simp [AList.mem_insert, (gameRef_ne_player game.roomNumber game.roomNumber other).symm]
  have start : Accounts game (World.created id game firestore storage).outcome ↔
      firestore.getDocuments (players game.roomNumber) = [] := by
    rw [outcome_of_idle idle, Accounts, counter?_created, unchanged, Option.some.injEq,
      ← List.length_eq_zero_iff]
    omega
  constructor
  · intro throughout
    have accounts := outcome_of_throughout solo sequential performed done throughout
    exact ⟨start.mp accounts, (throughout_iff_of_decided (decided_accounts game) solo
      sequential performed done accounts).mp throughout⟩
  · intro ⟨empty, meets⟩
    exact (throughout_iff_of_decided (decided_accounts game) solo sequential performed done
      (start.mpr empty)).mpr meets

def joinLeaveJoin : List Event :=
  (World.created 0 (Game.init 7 2 "noon") ∅ ∅).follow [
    .call 1 (join 7 "ann"), .answer 0, .answer 1, .answer 1, .answer 0, .answer 0,
    .call 2 (.removePlayer 7 (Player.init "ann" someImage)), .answer 0, .answer 0, .answer 0,
    .call 3 (join 7 "ann"), .answer 0, .answer 0, .answer 0, .answer 0, .answer 0]

theorem counter_accounts_in_turn_joinLeaveJoin :
    Throughout World.step (AtRest fun store => counter? 7 store = some
        ((2 : Int) - (store.getDocuments (players 7)).length))
      (World.created 0 (Game.init 7 2 "noon") ∅ ∅) joinLeaveJoin := by
  have ends : (run World.step (World.created 0 (Game.init 7 2 "noon") ∅ ∅)
      joinLeaveJoin).any (fun final => final.outstanding = []) = true := by
    decide
  rcases run_ends ends with ⟨final, performed, done⟩
  exact (counter_accounts_in_turn performed (by decide) done).mpr ⟨by decide, by decide⟩

def joinTwice : List Event :=
  (World.created 0 (Game.init 7 2 "noon") ∅ ∅).follow [
    .call 1 (join 7 "ann"), .answer 0, .answer 0, .answer 0, .answer 0, .answer 0,
    .call 2 (join 7 "ann"), .answer 0, .answer 0, .answer 0, .answer 0, .answer 0]

/-- The counter then shows nobody missing although one player has joined a room for
two. -/
theorem counter_miscounts_in_turn :
    ∃ final, run World.step (World.created 0 (Game.init 7 2 "noon") ∅ ∅) joinTwice =
        some final ∧
      Meets World.step (Sequential 7) (World.created 0 (Game.init 7 2 "noon") ∅ ∅)
        joinTwice ∧
      final.outstanding = [] ∧ counter? 7 final.firestore ≠
        some ((2 : Int) - (final.firestore.getDocuments (players 7)).length) := by
  have ends : (run World.step (World.created 0 (Game.init 7 2 "noon") ∅ ∅) joinTwice).any
      (fun final => final.outstanding = [] ∧ counter? 7 final.firestore ≠
        some ((2 : Int) - (final.firestore.getDocuments (players 7)).length)) = true := by
    decide
  rcases run_ends ends with ⟨final, performed, miscounts⟩
  exact ⟨final, performed, by decide, miscounts⟩

end AssassinGame
