import AssassinGame.Foundation.Draws
import AssassinGame.Targets.Assignment
import AssassinGame.Targets.Cycle

/-! # How the draws of targets fall

One shuffle of `Game.assignTargets` makes every ring equally often. The shuffles of the game
screens give every phone each of the others equally often, and make a ring far more seldom.
-/

namespace AssassinGame

open AssassinGame.Draws AssassinGame.Ring TabBarVC

/-! ## One shuffle for all -/

/-- Every ring through the players of a game is made by as many orders of the players as there
are players. -/
theorem assignTargets_makes_rings_evenly {game : Game} {heap : Heap}
    (nodup : game.players.Nodup) (two : 2 ≤ game.players.length) {order : List PlayerRef}
    (perm : order.Perm game.players) :
    ∃ making ⊆ orders game.players, making.card = game.players.length ∧
      ∀ shuffle : Shuffle PlayerRef, ∃ result : Game × Heap,
        game.assignTargets shuffle heap = some result ∧
        ((∀ hunter ∈ game.players, ∀ victim,
            result.2.target hunter = some victim ↔ Follows order hunter victim) ↔
          shuffle game.players ∈ making) := by
  refine ⟨(orders game.players).filter (· ~r order), Finset.filter_subset _ _,
    card_orders_ring nodup two perm, fun shuffle => ?_⟩
  have shuffled := shuffle.perm game.players
  rcases game.assignTargets_spec shuffle heap nodup two with ⟨result, assigned, _, _, ring⟩
  refine ⟨result, assigned, ?_⟩
  rw [Finset.mem_filter, mem_orders, and_iff_right shuffled,
    ← follows_iff_isRotated nodup two shuffled perm]
  constructor
  · intro makes hunter member victim
    rw [← ring hunter member, makes hunter member]
  · intro alike hunter member victim
    rw [ring hunter member, alike hunter member]

theorem assignTargets_makes_rings_evenly_trio :
    ∃ making ⊆ orders Game.trio.players, making.card = 3 ∧ [0, 1, 2] ∈ making ∧
      ∃ result : Game × Heap, Game.trio.assignTargets .keep Game.trioHeap = some result ∧
        ∀ hunter ∈ Game.trio.players, ∀ victim,
          result.2.target hunter = some victim ↔ Follows [1, 2, 0] hunter victim := by
  rcases @assignTargets_makes_rings_evenly Game.trio Game.trioHeap (by decide) (by decide)
    [1, 2, 0] (by decide) with ⟨making, inside, count, makes⟩
  rcases makes .keep with ⟨result, assigned, whole⟩
  rcases Game.trio.assignTargets_spec .keep Game.trioHeap (by decide) (by decide) with
    ⟨result', same, _, _, ring⟩
  rw [assigned, Option.some.injEq] at same
  subst same
  have follows : ∀ hunter ∈ Game.trio.players, ∀ victim,
      result.2.target hunter = some victim ↔ Follows [1, 2, 0] hunter victim := by
    intro hunter member victim
    rw [ring hunter member]
    exact (follows_iff_isRotated (by decide) (by decide) (.refl _) (by decide)).mpr (by decide)
      hunter member victim
  exact ⟨making, inside, count, whole.mp follows, result, assigned, follows⟩

/-! ## A shuffle for each phone -/

section Clients

variable {room : Int} {registered : List Player} {store : Firestore} {names : List String}
  {label : String → String} {shuffle : String → Shuffle String}

theorem exists_registered (named : registered.map Player.name = names) {name : String}
    (member : name ∈ names) : ∃ player ∈ registered, player.name = name :=
  List.mem_map.mp (named.symm ▸ member)

theorem mem_documents_iff (registry : Registry room registered store)
    (named : registered.map Player.name = names)
    (direct : ∀ player ∈ registered, playerID? room player = some player.name) {id : String} :
    id ∈ store.getDocuments (players room) ↔ id ∈ names := by
  rw [registry.documents, ← named, List.mem_map]
  constructor
  · intro ⟨player, member, own⟩
    exact ⟨player, member, Option.some.inj ((direct player member).symm.trans own)⟩
  · intro ⟨player, member, own⟩
    exact ⟨player, member, own ▸ direct player member⟩

/-- Any ring can be produced. -/
theorem producible_iff_isRing {aims : String → String → Prop} (distinct : names.Nodup)
    (two : 2 ≤ names.length) : Producible names aims ↔ IsRing names aims := by
  refine ⟨fun producible => producible.isRing two, fun ⟨order, perm, ring⟩ => ?_⟩
  have named : (List.range names.length).map (fun ref => names[ref]?.getD "") = names := by
    apply List.ext_getElem
    · simp
    · intro position _ inside
      simp [inside]
  have places : (order.map names.idxOf).Perm (List.range names.length) := by
    have all : names.map names.idxOf = List.range names.length := by
      apply List.ext_getElem
      · simp
      · intro position inside _
        rw [List.getElem_map, List.getElem_range]
        exact distinct.idxOf_getElem position (by simpa using inside)
    exact all ▸ perm.map names.idxOf
  have size : 2 ≤ (List.range names.length).length := by simpa using two
  rcases Game.assignTargets_spec ⟨0, 0, List.range names.length, ""⟩
    (.toward (List.range names.length) _ places)
    ⟨fun ref => Player.init (names[ref]?.getD "") ⟨none⟩, fun _ => none⟩
    List.nodup_range size with ⟨result, assigned, _⟩
  refine ⟨_, _, _, result, List.nodup_range, named, assigned, fun hunter victim => ?_⟩
  rw [links_iff_follows List.nodup_range size assigned, ring, Shuffle.toward_apply]
  have back : (order.map names.idxOf).map (fun ref => names[ref]?.getD "") = order := by
    rw [List.map_map]
    refine List.map_congr_left (fun name member => ?_) |>.trans (List.map_id order)
    have below := List.idxOf_lt_length_of_mem (perm.mem_iff.mp member)
    simp [below]
  exact iff_of_eq (congrArg (Follows · hunter victim) back.symm)

/-- What the phone of the player can be given as a target. -/
def candidates [Canonical] (room : Int) (store : Firestore) (name : String) : List String :=
  potentialTargets name (store.getDocuments (players room))

variable [Canonical]

theorem mem_candidates {id name : String} (registry : Registry room registered store)
    (named : registered.map Player.name = names)
    (direct : ∀ player ∈ registered, playerID? room player = some player.name)
    (apart : Distinguished names) (member : name ∈ names) :
    id ∈ candidates room store name ↔ id ∈ names ∧ id ≠ name := by
  rw [candidates, mem_potentialTargets, mem_documents_iff registry named direct]
  refine and_congr_right fun inside => not_congr ⟨fun same => apart.eq inside member same, ?_⟩
  rintro rfl
  exact .refl _

theorem nodup_candidates (name : String) : (candidates room store name).Nodup := by
  rw [candidates, potentialTargets_eq]
  exact (store.nodup_getDocuments (players room)).filter _

theorem length_candidates (registry : Registry room registered store)
    (named : registered.map Player.name = names)
    (direct : ∀ player ∈ registered, playerID? room player = some player.name)
    (apart : Distinguished names) {name : String} (member : name ∈ names) :
    (candidates room store name).length = names.length - 1 := by
  have distinct : names.Nodup := named ▸ registry.distinct
  rw [← List.length_erase_of_mem member]
  refine List.Perm.length_eq ((List.perm_ext_iff_of_nodup (nodup_candidates name)
    (distinct.erase name)).mpr fun id => ?_)
  rw [mem_candidates registry named direct apart member, distinct.mem_erase_iff, and_comm]

theorem shown_eq (name : String) : shown room store label shuffle name =
    ((shuffle name (candidates room store name)).getLast?).getD (label name) := by
  rw [shown, completion_targetName]
  rfl

theorem shown_mem (registry : Registry room registered store)
    (named : registered.map Player.name = names)
    (direct : ∀ player ∈ registered, playerID? room player = some player.name)
    (apart : Distinguished names) (two : 2 ≤ names.length) {name : String} (member : name ∈ names) :
    shown room store label shuffle name ∈ candidates room store name := by
  refine completion_mem ⟨room, name, label name⟩ (shuffle name) fun empty => ?_
  have length := length_candidates registry named direct apart member
  rw [candidates, empty, List.length_nil] at length
  omega

theorem given_iff (registry : Registry room registered store)
    (named : registered.map Player.name = names)
    (direct : ∀ player ∈ registered, playerID? room player = some player.name)
    (apart : Distinguished names) (two : 2 ≤ names.length) {hunter victim : String} :
    Given room registered store label shuffle hunter victim ↔
      ∃ phone : Fin names.length, names[phone] = hunter ∧
        shown room store label shuffle names[phone] = victim := by
  constructor
  · intro ⟨⟨player, member, own⟩, other, otherMember, otherOwn, shows⟩
    have inside : hunter ∈ names := by
      rw [← named, ← own]
      exact List.mem_map_of_mem member
    rcases List.getElem_of_mem inside with ⟨place, below, found⟩
    refine ⟨⟨place, below⟩, found, ?_⟩
    change shown room store label shuffle names[place] = victim
    rw [direct other otherMember, Option.some.injEq] at shows
    rw [found, ← shows, otherOwn]
  · rintro ⟨phone, rfl, rfl⟩
    have member : names[phone] ∈ names := List.getElem_mem phone.2
    have shows := (mem_candidates registry named direct apart member).mp
      (@shown_mem _ _ _ _ label shuffle _ registry named direct apart two _ member)
    rcases exists_registered named shows.1 with ⟨target, there, own⟩
    exact ⟨exists_registered named member, target, there, own, own ▸ direct target there⟩

theorem card_orders_shown (registry : Registry room registered store)
    (named : registered.map Player.name = names)
    (direct : ∀ player ∈ registered, playerID? room player = some player.name)
    (apart : Distinguished names) {name choice : String} (member : name ∈ names)
    (chosen : choice ∈ candidates room store name) :
    ((orders (candidates room store name)).filter fun order =>
      (order.getLast?).getD (label name) = choice).card = (names.length - 2).factorial := by
  have length := length_candidates registry named direct apart member
  rw [show names.length - 2 = (candidates room store name).length - 1 by omega,
    ← card_orders_last (nodup_candidates name) chosen]
  refine congrArg Finset.card (Finset.filter_congr fun order ordered => ?_)
  have some' : order ≠ [] := fun empty => by
    have perm := mem_orders.mp ordered
    exact List.ne_nil_of_mem chosen (empty ▸ perm).symm.eq_nil
  rw [List.getLast?_eq_getLast_of_ne_nil some', Option.getD_some, Option.some.injEq]

theorem card_draws_ring (registry : Registry room registered store)
    (named : registered.map Player.name = names)
    (direct : ∀ player ∈ registered, playerID? room player = some player.name)
    (apart : Distinguished names) (two : 2 ≤ names.length) :
    ((draws fun phone : Fin names.length => candidates room store names[phone]).filter
      fun draw => (fun phone => ((draw phone).getLast?).getD (label names[phone])) ∈
        rings names).card =
      (names.length - 1).factorial * (names.length - 2).factorial ^ names.length := by
  have distinct : names.Nodup := named ▸ registry.distinct
  have lands : ∀ phone : Fin names.length, ∀ order ∈ orders (candidates room store names[phone]),
      (order.getLast?).getD (label names[phone]) ∈
        (candidates room store names[phone]).toFinset := by
    intro phone order ordered
    have perm := mem_orders.mp ordered
    have member : names[phone] ∈ names := List.getElem_mem phone.2
    have length := length_candidates registry named direct apart member
    have some' : order ≠ [] := fun empty => by
      rw [← perm.length_eq, empty, List.length_nil] at length
      omega
    rw [List.getLast?_eq_getLast_of_ne_nil some', Option.getD_some, List.mem_toFinset,
      ← perm.mem_iff]
    exact List.getLast_mem some'
  have counted := card_draws_filter lands (fun phone choice chosen =>
    card_orders_shown registry named direct apart (List.getElem_mem phone.2)
      (List.mem_toFinset.mp chosen)) (· ∈ rings names)
  have all : (Fintype.piFinset fun phone : Fin names.length =>
      (candidates room store names[phone]).toFinset).filter (· ∈ rings names) =
        rings names := by
    ext choice
    rw [Finset.mem_filter, Fintype.mem_piFinset]
    refine and_iff_right_of_imp fun ring phone => ?_
    have member : names[phone] ∈ names := List.getElem_mem phone.2
    rw [List.mem_toFinset, mem_candidates registry named direct apart member]
    exact choice_mem_of_rings distinct two ring phone
  rw [counted, all, card_rings distinct two, Finset.prod_const, Finset.card_univ,
    Fintype.card_fin]

theorem card_draws_candidates (registry : Registry room registered store)
    (named : registered.map Player.name = names)
    (direct : ∀ player ∈ registered, playerID? room player = some player.name)
    (apart : Distinguished names) :
    (draws fun phone : Fin names.length => candidates room store names[phone]).card =
      (names.length - 1).factorial ^ names.length := by
  have all : ∀ phone : Fin names.length, (candidates room store names[phone]).length.factorial =
      (names.length - 1).factorial := by
    intro phone
    have member : names[phone] ∈ names := List.getElem_mem phone.2
    rw [length_candidates registry named direct apart member]
  rw [card_draws fun phone => nodup_candidates _, Finset.prod_congr rfl fun phone _ => all phone,
    Finset.prod_const, Finset.card_univ, Fintype.card_fin]

end Clients

/-- The phones of the players of a room each draw a target. Each player is registered under its
own name, and no two names are the same text. Of all the orders in which the phones can draw, so
many give a ring that `Game.assignTargets` could have made. -/
theorem clients_form_ring_of_draws [Canonical] {room : Int} {registered : List Player}
    {store : Firestore} {names : List String} (registry : Registry room registered store)
    (named : registered.map Player.name = names)
    (direct : ∀ player ∈ registered, playerID? room player = some player.name)
    (apart : Distinguished names) (two : 2 ≤ names.length) (label : String → String) :
    (draws fun phone : Fin names.length => candidates room store names[phone]).card =
      (names.length - 1).factorial ^ names.length ∧
    ∃ winning ⊆ draws fun phone : Fin names.length => candidates room store names[phone],
      winning.card = (names.length - 1).factorial *
        (names.length - 2).factorial ^ names.length ∧
      ∀ shuffle : String → Shuffle String,
        Producible names (Given room registered store label shuffle) ↔
          (fun phone : Fin names.length =>
            shuffle names[phone] (candidates room store names[phone])) ∈ winning := by
  have distinct : names.Nodup := named ▸ registry.distinct
  refine ⟨card_draws_candidates registry named direct apart, _, Finset.filter_subset _ _,
    @card_draws_ring _ _ _ _ label _ registry named direct apart two, fun shuffle => ?_⟩
  have links : Given room registered store label shuffle = fun hunter victim =>
      ∃ phone : Fin names.length, names[phone] = hunter ∧
        shown room store label shuffle names[phone] = victim :=
    funext₂ fun _ _ => propext (given_iff registry named direct apart two)
  rw [producible_iff_isRing distinct two, links, ← mem_rings_iff distinct, Finset.mem_filter,
    mem_draws, and_iff_right fun phone => (shuffle names[phone]).perm _]
  simp only [shown_eq]

section Trio

open Ascii

theorem clients_form_ring_of_draws_trio :
    (draws fun phone : Fin ["ann", "bob", "cat"].length =>
      candidates 7 (register 7 ["ann", "bob", "cat"]) ["ann", "bob", "cat"][phone]).card = 8 ∧
    ∃ winning ⊆ draws fun phone : Fin ["ann", "bob", "cat"].length =>
        candidates 7 (register 7 ["ann", "bob", "cat"]) ["ann", "bob", "cat"][phone],
      winning.card = 2 := by
  have registry := @registry_of_documents 7 ["ann", "bob", "cat"]
    (register 7 ["ann", "bob", "cat"]) (by decide) (by decide) (by decide)
  rcases clients_form_ring_of_draws registry rfl (by decide) (by decide) (by decide)
    fun _ => placeholder
    with ⟨all, winning, inside, count, _⟩
  exact ⟨all, winning, inside, count⟩

end Trio

end AssassinGame
