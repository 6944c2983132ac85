import AssassinGame.Controller.TabBarVC
import AssassinGame.Rooms.Players

/-! # Targets chosen by every client for itself

`Game.assignTargets` links all players to one ring. The clients of the game screen
each shuffle and pick on their own; the rings that `Game.assignTargets` produces are
the yardstick for what they arrive at together.
-/

namespace AssassinGame

open AssassinGame.Ring TabBarVC

/-- The players of a room and the documents kept for them: every player has a name of
its own, which names a document directly in the players subcollection, and the
subcollection holds nothing else. -/
structure Registry (room : Int) (registered : List Player) (store : Firestore) : Prop where
  distinct : (registered.map Player.name).Nodup
  direct : ∀ player ∈ registered, (playerID? room player).isSome
  documents : ∀ id, id ∈ store.getDocuments (players room) ↔
    ∃ player ∈ registered, playerID? room player = some id

/-- What the label of the client `name` shows once its `assignTarget` query has been
answered. -/
def shown [Canonical] (room : Int) (store : Firestore) (label : String → String)
    (shuffle : String → Shuffle String) (name : String) : String :=
  (assignTarget.completion ⟨room, name, label name⟩ (shuffle name)
    (store.getDocuments (players room))).1.targetName

/-- The client of the player `hunter` was given the player `victim` as its target. -/
def Given [Canonical] (room : Int) (registered : List Player) (store : Firestore)
    (label : String → String) (shuffle : String → Shuffle String)
    (hunter victim : String) : Prop :=
  (∃ player ∈ registered, player.name = hunter) ∧
    ∃ player ∈ registered, player.name = victim ∧
      playerID? room player = some (shown room store label shuffle hunter)

/-- Some run of `Game.assignTargets` on players of these names links them this way. -/
def Producible (names : List String) (aims : String → String → Prop) : Prop :=
  ∃ (game : Game) (shuffle : Shuffle PlayerRef) (heap : Heap) (result : Game × Heap),
    game.players.Nodup ∧ game.players.map (fun ref => (heap.player ref).name) = names ∧
    game.assignTargets shuffle heap = some result ∧
    ∀ hunter victim, aims hunter victim ↔
      ∃ left ∈ game.players, ∃ right, result.2.target left = some right ∧
        (heap.player left).name = hunter ∧ (heap.player right).name = victim

/-- The clients of the room have been given targets that `Game.assignTargets` could have set,
and these lead once around all the players. -/
def FormRing [Canonical] (room : Int) (registered : List Player) (store : Firestore)
    (label : String → String) (shuffle : String → Shuffle String) : Prop :=
  Producible (registered.map Player.name) (Given room registered store label shuffle) ∧
    SingleCycle (registered.map Player.name) (Given room registered store label shuffle)

/-! ## What `Game.assignTargets` can produce -/

/-- The links of `Game.assignTargets`, seen as links between names. -/
theorem links_iff_follows {game : Game} {shuffle : Shuffle PlayerRef} {heap : Heap}
    {result : Game × Heap} (nodup : game.players.Nodup) (two : 2 ≤ game.players.length)
    (assigned : game.assignTargets shuffle heap = some result) (hunter victim : String) :
    (∃ left ∈ game.players, ∃ right, result.2.target left = some right ∧
        (heap.player left).name = hunter ∧ (heap.player right).name = victim) ↔
      Follows ((shuffle game.players).map fun ref => (heap.player ref).name)
        hunter victim := by
  rcases game.assignTargets_spec shuffle heap nodup two with ⟨result', same, _, _, ring⟩
  rw [assigned, Option.some.injEq] at same
  subst same
  rw [follows_map]
  constructor
  · intro ⟨left, member, right, aimed, hunterName, victimName⟩
    exact ⟨left, right, (ring left member right).mp aimed, hunterName, victimName⟩
  · intro ⟨left, right, follows, hunterName, victimName⟩
    rcases follows with ⟨position, inside, found, next⟩
    have member : left ∈ game.players :=
      shuffle.mem_iff.mp (List.mem_of_getElem? found)
    exact ⟨left, member, right, (ring left member right).mpr ⟨position, inside, found, next⟩,
      hunterName, victimName⟩

theorem Producible.isRing {names : List String} {aims : String → String → Prop}
    (producible : Producible names aims) (two : 2 ≤ names.length) : IsRing names aims := by
  rcases producible with ⟨game, shuffle, heap, result, nodup, rfl, assigned, links⟩
  rw [List.length_map] at two
  refine ⟨(shuffle game.players).map fun ref => (heap.player ref).name,
    (shuffle.perm game.players).map _, fun hunter victim => ?_⟩
  rw [links, links_iff_follows nodup two assigned]

/-- The ring in the order of the names can be produced: no shuffle need move
anybody. -/
theorem producible_of_follows {names : List String} {aims : String → String → Prop}
    (two : 2 ≤ names.length)
    (ring : ∀ hunter victim, aims hunter victim ↔ Follows names hunter victim) :
    Producible names aims := by
  have named : (List.range names.length).map (fun ref => names[ref]?.getD "") = names := by
    apply List.ext_getElem
    · simp
    · intro position _ inside
      simp [inside]
  have size : 2 ≤ (List.range names.length).length := by simpa using two
  rcases Game.assignTargets_spec ⟨0, 0, List.range names.length, ""⟩ .keep
    ⟨fun ref => Player.init (names[ref]?.getD "") ⟨none⟩, fun _ => none⟩
    List.nodup_range size with ⟨result, assigned, _⟩
  refine ⟨_, _, _, result, List.nodup_range, named, assigned, fun hunter victim => ?_⟩
  rw [links_iff_follows List.nodup_range size assigned, ring]
  exact iff_of_eq (congrArg (Follows · hunter victim) named.symm)

theorem follows_pair {left right hunter victim : String} :
    Follows [left, right] hunter victim ↔
      hunter = left ∧ victim = right ∨ hunter = right ∧ victim = left := by
  constructor
  · intro ⟨position, inside, found, next⟩
    match position, inside with
    | 0, _ => exact .inl ⟨(Option.some.inj found).symm, (Option.some.inj next).symm⟩
    | 1, _ => exact .inr ⟨(Option.some.inj found).symm, by simpa [eq_comm] using next⟩
  · intro either
    rcases either with ⟨rfl, rfl⟩ | ⟨rfl, rfl⟩
    · exact ⟨0, by simp, rfl, rfl⟩
    · exact ⟨1, by simp, rfl, by simp⟩

/-! ## What the clients arrive at -/

section Clients

variable [Canonical] {room : Int} {registered : List Player} {store : Firestore}
  {label : String → String} {shuffle : String → Shuffle String}

theorem not_sameText_of_renamed {player : Player} {id : String}
    (named : playerID? room player = some id) (renamed : id ≠ player.name) :
    ¬SameText id player.name := by
  have path := playerID?_eq_some.mp named
  have separated : '/' ∈ player.name.toList := by
    by_contra free
    have plain : Segments.Plain player.name :=
      ⟨@name_ne_empty room _ (by simp [path]), free⟩
    rw [playerID?_of_plain plain, Option.some.injEq] at named
    exact renamed named.symm
  have piece : id ∈ Segments.split player.name := by
    have pieces := List.append_cancel_left (document?_eq_some path)
    simp [← pieces]
  rcases List.mem_map.mp (List.mem_filter.mp piece).1 with ⟨characters, inside, rfl⟩
  have free : '/' ∉ (String.ofList characters).toList := by
    rw [String.toList_ofList]
    exact Segments.slash_not_mem_of_mem_splitOn inside
  exact fun same => not_sameText_of_slash separated free same.symm

theorem exists_shown {name target : String}
    (candidate : target ∈ store.getDocuments (players room)) (other : ¬SameText target name) :
    ∃ shuffled, ∀ shuffle : String → Shuffle String, shuffle name = shuffled →
      shown room store label shuffle name = target := by
  rcases exists_completion_targetName ⟨room, name, label name⟩
    (mem_potentialTargets.mpr ⟨candidate, other⟩) with ⟨shuffled, shows⟩
  refine ⟨shuffled, fun shuffle same => ?_⟩
  rw [shown, same, shows]

theorem given_itself (registry : Registry room registered store) {player : Player}
    (member : player ∈ registered) {id : String} (direct : playerID? room player = some id)
    (renamed : id ≠ player.name) :
    ∃ shuffle, Given room registered store label shuffle player.name player.name := by
  have candidate := (registry.documents id).mpr ⟨player, member, direct⟩
  rcases exists_shown candidate (not_sameText_of_renamed direct renamed) with ⟨shuffled, shows⟩
  refine ⟨fun _ => shuffled, ⟨player, member, rfl⟩, player, member, rfl, ?_⟩
  rw [shows (fun _ => shuffled) rfl, direct]

theorem given_twice (registry : Registry room registered store) {left right victim : Player}
    (leftMember : left ∈ registered) (rightMember : right ∈ registered)
    (victimMember : victim ∈ registered)
    (direct : playerID? room victim = some victim.name)
    (leftOther : ¬SameText victim.name left.name) (rightOther : ¬SameText victim.name right.name)
    (apart : left.name ≠ right.name) :
    ∃ shuffle, Given room registered store label shuffle left.name victim.name ∧
      Given room registered store label shuffle right.name victim.name := by
  have candidate := (registry.documents _).mpr ⟨victim, victimMember, direct⟩
  rcases exists_shown candidate leftOther with ⟨leftShuffle, leftShows⟩
  rcases exists_shown candidate rightOther with ⟨rightShuffle, rightShows⟩
  refine ⟨fun name => if name = left.name then leftShuffle else rightShuffle,
    ⟨⟨left, leftMember, rfl⟩, victim, victimMember, rfl, ?_⟩,
    ⟨⟨right, rightMember, rfl⟩, victim, victimMember, rfl, ?_⟩⟩
  · rw [leftShows _ (if_pos rfl), direct]
  · rw [rightShows _ (if_neg apart.symm), direct]

theorem shown_of_same (registry : Registry room registered store)
    (direct : ∀ player ∈ registered, playerID? room player = some player.name) {name : String}
    (same : ∀ player ∈ registered, SameText player.name name) :
    shown room store label shuffle name = label name := by
  refine completion_of_own ⟨room, name, label name⟩ (shuffle name) fun id listed => ?_
  rcases (registry.documents id).mp listed with ⟨player, member, named⟩
  rw [direct player member, Option.some.injEq] at named
  exact named ▸ same player member

theorem shown_of_pair {left right : Player} (registry : Registry room [left, right] store)
    (leftDirect : playerID? room left = some left.name)
    (rightDirect : playerID? room right = some right.name)
    (apart : ¬SameText left.name right.name) :
    shown room store label shuffle left.name = right.name ∧
      shown room store label shuffle right.name = left.name := by
  have documents : ∀ id, id ∈ store.getDocuments (players room) ↔
      id = left.name ∨ id = right.name := by
    intro id
    rw [registry.documents]
    simp [leftDirect, rightDirect, eq_comm]
  have only : ∀ name, ∀ target ∈ store.getDocuments (players room), ¬SameText target name →
      shown room store label shuffle name ∈ store.getDocuments (players room) ∧
        shown room store label shuffle name ≠ name := by
    intro name target candidate other
    have selected := completion_selects ⟨room, name, label name⟩ (shuffle name) candidate other
    exact ⟨selected.1, ne_of_not_sameText selected.2⟩
  have leftShown := only left.name right.name ((documents _).mpr (.inr rfl))
    fun same => apart same.symm
  have rightShown := only right.name left.name ((documents _).mpr (.inl rfl)) apart
  exact ⟨((documents _).mp leftShown.1).resolve_left leftShown.2,
    ((documents _).mp rightShown.1).resolve_right rightShown.2⟩

theorem given_pair_iff {left right : Player} (registry : Registry room [left, right] store)
    (leftDirect : playerID? room left = some left.name)
    (rightDirect : playerID? room right = some right.name)
    (apart : ¬SameText left.name right.name) (hunter victim : String) :
    Given room [left, right] store label shuffle hunter victim ↔
      Follows [left.name, right.name] hunter victim := by
  have differ := ne_of_not_sameText apart
  rcases @shown_of_pair _ room store label shuffle left right registry leftDirect rightDirect
    apart with ⟨leftShown, rightShown⟩
  rw [follows_pair, Given]
  simp only [List.mem_cons, List.not_mem_nil, or_false, exists_eq_or_imp, exists_eq_left,
    leftDirect, rightDirect, Option.some.injEq]
  constructor
  · intro ⟨hunts, hunted⟩
    rcases hunts with rfl | rfl
    · rw [leftShown] at hunted
      rcases hunted with ⟨_, same⟩ | ⟨rfl, _⟩
      · exact absurd same differ
      · exact .inl ⟨rfl, rfl⟩
    · rw [rightShown] at hunted
      rcases hunted with ⟨rfl, _⟩ | ⟨_, same⟩
      · exact .inr ⟨rfl, rfl⟩
      · exact absurd same differ.symm
  · intro either
    rcases either with ⟨rfl, rfl⟩ | ⟨rfl, rfl⟩
    · exact ⟨.inl rfl, .inr ⟨rfl, leftShown.symm⟩⟩
    · exact ⟨.inr rfl, .inl ⟨rfl, rightShown.symm⟩⟩

/-- Two players called by their names whose names are not the same text hunt each other. -/
theorem formRing_of_pair (registry : Registry room registered store)
    (pair : registered.length = 2)
    (direct : ∀ player ∈ registered, playerID? room player = some player.name)
    (apart : Distinguished (registered.map Player.name)) :
    FormRing room registered store label shuffle := by
  rcases List.length_eq_two.mp pair with ⟨left, right, rfl⟩
  have ring := @given_pair_iff _ room store label shuffle left right registry
    (direct left (by simp)) (direct right (by simp)) (by simpa [Distinguished] using apart)
  have producible := @producible_of_follows [left.name, right.name] _ (by simp) ring
  exact ⟨producible, (producible.isRing (by simp)).singleCycle registry.distinct (by simp)⟩

end Clients

section Ring

variable [Canonical] {room : Int} {registered : List Player} {store : Firestore} {label : String}

/-- Where the clients always form a ring, every player is called by its name. -/
theorem direct_of_formRing (registry : Registry room registered store)
    (always : ∀ shuffle, FormRing room registered store (fun _ => label) shuffle) :
    ∀ player ∈ registered, playerID? room player = some player.name := by
  intro player member
  rcases Option.isSome_iff_exists.mp (registry.direct player member) with ⟨id, found⟩
  by_contra renamed
  rw [found, Option.some.injEq] at renamed
  rcases given_itself registry member found renamed with ⟨shuffle, itself⟩
  rcases (always shuffle).2 with ⟨cycle, _, moves, next⟩
  exact (moves player.name).mpr ((next _ _).mp itself).1 ((next _ _).mp itself).2

theorem sameText_of_formRing (registry : Registry room registered store)
    (always : ∀ shuffle, FormRing room registered store (fun _ => label) shuffle)
    {left right victim : Player} (leftMember : left ∈ registered)
    (rightMember : right ∈ registered) (victimMember : victim ∈ registered)
    (apart : left.name ≠ right.name) :
    SameText victim.name left.name ∨ SameText victim.name right.name := by
  by_contra other
  rw [not_or] at other
  rcases given_twice registry leftMember rightMember victimMember
    (direct_of_formRing registry always victim victimMember) other.1 other.2 apart with
    ⟨shuffle, leftGiven, rightGiven⟩
  exact apart ((always shuffle).2.hunter_unique leftGiven rightGiven)

theorem distinguished_of_formRing (registry : Registry room registered store)
    (always : ∀ shuffle, FormRing room registered store (fun _ => label) shuffle) :
    Distinguished (registered.map Player.name) := by
  refine registry.distinct.imp_of_mem fun leftNamed rightNamed apart same => apart ?_
  rcases List.mem_map.mp leftNamed with ⟨left, leftMember, rfl⟩
  rcases List.mem_map.mp rightNamed with ⟨right, rightMember, rfl⟩
  have direct := direct_of_formRing registry always
  -- a player with another name could be the target of both
  have all : ∀ player ∈ registered, SameText player.name left.name := fun player member =>
    (sameText_of_formRing registry always leftMember rightMember member apart).elim id
      fun second => second.trans same.symm
  have leftShown := @shown_of_same _ room registered store (fun _ => label) (fun _ => .keep)
    registry direct left.name all
  have rightShown := @shown_of_same _ room registered store (fun _ => label) (fun _ => .keep)
    registry direct right.name fun player member => (all player member).trans same
  -- so there is none, and both labels show what they showed before
  rcases (always fun _ => .keep).2 with ⟨cycle, ring⟩
  have given := (ring.2.2 left.name _).mpr ⟨List.mem_map_of_mem leftMember, rfl⟩
  refine SingleCycle.hunter_unique ⟨cycle, ring⟩ given ⟨⟨right, rightMember, rfl⟩, ?_⟩
  rcases given.2 with ⟨victim, member, named, shows⟩
  exact ⟨victim, member, named, by rw [shows, leftShown, rightShown]⟩

end Ring

/-- The clients of a room of two or more, whose labels all show what the storyboard has put
there, always arrive at a ring that `Game.assignTargets` could have made if and only if there
are just two of them, each is registered under the document of its own name and the two names
are not the same text. They then do whatever their labels showed before. -/
theorem clients_form_ring_iff [Canonical] {room : Int} {registered : List Player}
    {store : Firestore} (registry : Registry room registered store)
    (two : 2 ≤ registered.length) :
    ((∀ shuffle, FormRing room registered store (fun _ => placeholder) shuffle) ↔
      registered.length = 2 ∧
        (∀ player ∈ registered, playerID? room player = some player.name) ∧
        Distinguished (registered.map Player.name)) ∧
    (registered.length = 2 →
      (∀ player ∈ registered, playerID? room player = some player.name) →
        Distinguished (registered.map Player.name) →
          ∀ label shuffle, FormRing room registered store label shuffle) := by
  have forms (pair : registered.length = 2)
      (direct : ∀ player ∈ registered, playerID? room player = some player.name)
      (apart : Distinguished (registered.map Player.name)) :
      ∀ label shuffle, FormRing room registered store label shuffle :=
    fun _ _ => formRing_of_pair registry pair direct apart
  refine ⟨⟨fun always => ?_, fun pair => forms pair.1 pair.2.1 pair.2.2 _⟩, forms⟩
  have apart := distinguished_of_formRing registry always
  refine ⟨?_, direct_of_formRing registry always, apart⟩
  match registered, two with
  | [_, _], _ => rfl
  | victim :: left :: right :: _, _ =>
      have distinct := registry.distinct
      simp only [List.map_cons, List.nodup_cons, List.mem_cons, not_or] at distinct
      simp only [Distinguished, List.map_cons, List.pairwise_cons, List.mem_cons,
        forall_eq_or_imp] at apart
      exact absurd (sameText_of_formRing registry always (by simp) (by simp) (by simp)
        distinct.2.1.1) (not_or.mpr ⟨apart.1.1, apart.1.2.1⟩)

theorem registry_of_documents {room : Int} {names : List String} {store : Firestore}
    (distinct : names.Nodup) (plain : ∀ name ∈ names, Segments.Plain name)
    (documents : (store.getDocuments (players room)).Perm names) :
    Registry room (names.map fun name => Player.init name someImage) store where
  distinct := by simpa [Function.comp_def, Player.init] using distinct
  direct := by
    intro player member
    rcases List.mem_map.mp member with ⟨name, inside, rfl⟩
    rw [playerID?_of_plain (plain name inside)]
    rfl
  documents := by
    intro id
    rw [documents.mem_iff]
    constructor
    · intro inside
      exact ⟨Player.init id someImage, List.mem_map_of_mem inside,
        playerID?_of_plain (plain id inside)⟩
    · intro ⟨player, member, named⟩
      rcases List.mem_map.mp member with ⟨name, inside, rfl⟩
      rw [playerID?_of_plain (plain name inside), Option.some.injEq] at named
      exact named ▸ inside

def register (room : Int) (names : List String) : Firestore :=
  names.foldl (fun store name => (Write.setData (players room ++ [name])
    (playerFields (Player.init name someImage))).apply store) ∅

section Rooms

open Ascii

theorem clients_form_ring_iff_pair :
    FormRing 7 [Player.init "ann" someImage, Player.init "bob" someImage]
      (register 7 ["ann", "bob"]) (fun _ => placeholder) fun _ => .keep :=
  (clients_form_ring_iff (@registry_of_documents 7 ["ann", "bob"] (register 7 ["ann", "bob"])
      (by decide) (by decide) (by decide)) (by decide)).1.mpr
    ⟨by decide, by decide, by decide⟩ fun _ => .keep

/-- Three clients whose shuffles move nobody: two of them are given the same target. -/
theorem clients_miss_ring :
    ¬Producible ["ann", "bob", "cat"] (Given 7
      [Player.init "ann" someImage, Player.init "bob" someImage, Player.init "cat" someImage]
      (register 7 ["ann", "bob", "cat"]) (fun _ => placeholder) fun _ => .keep) := by
  intro producible
  have ring := (producible.isRing (by decide)).singleCycle (by decide) (by decide)
  have given (hunter : String) (hunts : hunter = "ann" ∨ hunter = "bob") : Given 7
      [Player.init "ann" someImage, Player.init "bob" someImage, Player.init "cat" someImage]
      (register 7 ["ann", "bob", "cat"]) (fun _ => placeholder) (fun _ => .keep)
      hunter "cat" := by
    rcases hunts with rfl | rfl
    · exact ⟨⟨Player.init "ann" someImage, by decide, rfl⟩, Player.init "cat" someImage,
        by decide, rfl, by decide⟩
    · exact ⟨⟨Player.init "bob" someImage, by decide, rfl⟩, Player.init "cat" someImage,
        by decide, rfl, by decide⟩
  exact absurd (ring.hunter_unique (given "ann" (.inl rfl)) (given "bob" (.inr rfl)))
    (by decide)

end Rooms

end AssassinGame
