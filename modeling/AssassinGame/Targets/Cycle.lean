import AssassinGame.Model.Game

/-! # The cycle of `Game.assignTargets` and what removals leave of it

The targets of a game lead once around all its players. A removal changes the array of
players only: whoever aimed at a removed player goes on aiming at it.
-/

namespace AssassinGame

open AssassinGame.Ring

namespace Game

variable {game : Game} {shuffle : Shuffle PlayerRef} {heap : Heap} {result : Game × Heap}

theorem two_of_assigned (assigned : game.assignTargets shuffle heap = some result) :
    2 ≤ game.players.length := by
  have length := (shuffle.perm game.players).length_eq
  by_contra few
  have notPair : (game.players.length : Int) ≠ 2 := by omega
  simp [assignTargets, length, notPair, guard, few] at assigned

/-- After `assignTargets`, every player of the shuffled array aims at the next one. -/
theorem links_of_assigned (nodup : game.players.Nodup)
    (assigned : game.assignTargets shuffle heap = some result) :
    result.1.players = shuffle game.players ∧ result.2.player = heap.player ∧
      Links result.1.players result.2.target := by
  have two := two_of_assigned assigned
  rcases game.assignTargets_spec shuffle heap nodup two with
    ⟨result', same, order, kept, ring⟩
  rw [assigned, Option.some.injEq] at same
  subst same
  refine ⟨order, kept, fun hunter member victim => ?_⟩
  rw [order] at member ⊢
  exact ring hunter (shuffle.mem_iff.mp member) victim

/-- `assignTargets` builds one cycle through all players of a game of two or more. -/
theorem assignTargets_builds_cycle (game : Game) (shuffle : Shuffle PlayerRef) (heap : Heap)
    (nodup : game.players.Nodup) (two : 2 ≤ game.players.length) :
    ∃ result, game.assignTargets shuffle heap = some result ∧
      result.1.players = shuffle game.players ∧
      (∀ player ∈ game.players, ∃ target, result.2.target player = some target ∧
        target ≠ player) ∧
      (∀ victim ∈ game.players, ∃! hunter,
        hunter ∈ game.players ∧ result.2.target hunter = some victim) ∧
      ∀ player ∈ game.players, ∃ tour : List PlayerRef, tour.Perm game.players ∧
        (∀ steps < game.players.length,
          walk result.2.target steps player = tour[steps]?) ∧
        walk result.2.target game.players.length player = some player := by
  rcases game.assignTargets_spec shuffle heap nodup two with ⟨result, assigned, _⟩
  rcases links_of_assigned nodup assigned with ⟨order, _, links⟩
  have perm : result.1.players.Perm game.players := order ▸ shuffle.perm game.players
  have size := perm.length_eq
  have single := links.isRing.singleCycle (perm.nodup_iff.mpr nodup) (size.symm ▸ two)
  refine ⟨result, assigned, order, ?_, ?_, ?_⟩
  · intro player member
    rcases single with ⟨cycle, _, moves, next⟩
    have inside := perm.mem_iff.mpr member
    exact ⟨cycle player, ((next player _).mpr ⟨inside, rfl⟩).2, (moves player).mpr inside⟩
  · intro victim member
    rcases links.exists_hunter (perm.mem_iff.mpr member) with ⟨hunter, inside, aims⟩
    refine ⟨hunter, ⟨perm.mem_iff.mp inside, aims⟩, fun other both => ?_⟩
    exact single.hunter_unique ⟨perm.mem_iff.mpr both.1, both.2⟩ ⟨inside, aims⟩
  · intro player member
    rcases walk_round links (perm.mem_iff.mpr member) with ⟨tour, visits, along, back⟩
    rw [size] at along back
    exact ⟨tour, visits.trans perm, along, back⟩

/-! ## Removals -/

section Removals

variable [Canonical]

theorem removePlayer_congr {left right : Heap} (same : left.player = right.player)
    (game : Game) (player : PlayerRef) :
    game.removePlayer left player = game.removePlayer right player := by
  have alike : named left player = named right player := by
    funext other
    simp only [named, same]
  rw [removePlayer_eq, removePlayer_eq, alike]

/-- Some call of `removePlayer` is given a player with this player's name. -/
def Removed (heap : Heap) (removals : List PlayerRef) (player : PlayerRef) : Prop :=
  ∃ removal ∈ removals, SameText (heap.player player).name (heap.player removal).name

instance (heap : Heap) (removals : List PlayerRef) (player : PlayerRef) :
    Decidable (Removed heap removals player) :=
  inferInstanceAs (Decidable (∃ removal ∈ removals, _))

/-- Removals never trap, and they leave the array as it is exactly if none of them was given
the name of one of the players. -/
theorem removals_leave (heap : Heap) (game : Game) (removals : List PlayerRef) :
    ∃ left, removals.foldlM (fun game player => game.removePlayer heap player) game = some left ∧
      left.players.Sublist game.players ∧
      (left.players = game.players ↔ ∀ player ∈ game.players, ¬Removed heap removals player) := by
  induction removals generalizing game with
  | nil => exact ⟨game, rfl, .refl _, by simp [Removed]⟩
  | cons removal removals induction =>
      have shorter := remaining_sublist (named heap removal) game.players
      rcases induction { game with players := remaining (named heap removal) game.players } with
        ⟨left, performed, rest, whole⟩
      refine ⟨left, ?_, rest.trans shorter, ?_⟩
      · rw [List.foldlM_cons, removePlayer_eq, Option.bind_eq_bind, Option.bind_some, performed]
      · have both : left.players = game.players ↔
            left.players = remaining (named heap removal) game.players ∧
              remaining (named heap removal) game.players = game.players := by
          refine ⟨fun same => ?_, fun same => same.1.trans same.2⟩
          have first := shorter.eq_of_length_le (same ▸ rest.length_le)
          exact ⟨same.trans first.symm, first⟩
        have parts : (∀ player ∈ game.players, ¬Removed heap (removal :: removals) player) ↔
            (∀ player ∈ game.players, ¬Removed heap removals player) ∧
              ∀ player ∈ game.players, named heap removal player = false := by
          simp only [Removed, named, decide_eq_false_iff_not, List.exists_mem_cons_iff, not_or]
          exact ⟨fun stay => ⟨fun player member => (stay player member).2,
            fun player member => (stay player member).1⟩,
            fun stay player member => ⟨stay.2 player member, stay.1 player member⟩⟩
        rw [both, whole, parts, ← remaining_eq_self_iff]
        exact and_congr_left fun first => by simp only [first]

/-- After removals that leave two players or more, the targets form one cycle through the
players left if and only if no removal was given the name of a player. -/
theorem cycle_after_removals_iff {removals : List PlayerRef} {left : Game}
    (distinct : (game.players.map fun ref => (heap.player ref).name).Nodup)
    (assigned : game.assignTargets shuffle heap = some result)
    (removed : removals.foldlM (fun game player => game.removePlayer result.2 player)
      result.1 = some left)
    (two : 2 ≤ left.players.length) :
    (SingleCycle left.players fun hunter victim =>
        hunter ∈ left.players ∧ result.2.target hunter = some victim) ↔
      ∀ player ∈ game.players, ¬Removed heap removals player := by
  rcases links_of_assigned distinct.of_map assigned with ⟨order, same, links⟩
  simp only [removePlayer_congr same] at removed
  have perm : result.1.players.Perm game.players := order ▸ shuffle.perm game.players
  have nodup : result.1.players.Nodup := perm.nodup_iff.mpr distinct.of_map
  rcases removals_leave heap result.1 removals with ⟨left', performed, sublist, whole⟩
  rw [removed, Option.some.injEq] at performed
  subst performed
  simp only [← perm.mem_iff]
  rw [← whole]
  constructor
  · intro single
    -- nobody who is left aims at a removed player, and from one player the ring leads to all
    have leads : ∀ hunter ∈ result.1.players, hunter ∈ left.players →
        ∀ victim, result.2.target hunter = some victim → victim ∈ left.players :=
      fun hunter _ stays victim aims => single.victim_mem ⟨stays, aims⟩
    rcases List.exists_mem_of_length_pos (Nat.lt_of_lt_of_le Nat.two_pos two) with
      ⟨first, found⟩
    have all := links.all_of_one leads (sublist.subset found) found
    exact sublist.eq_of_length_le (nodup.subperm all).length_le
  · intro all
    rw [all] at two ⊢
    exact links.isRing.singleCycle nodup two

end Removals

def trio : Game := ⟨7, 3, [0, 1, 2], "noon"⟩

/-- Its players, and one who is not in the game. -/
def trioHeap : Heap where
  player ref := Player.init (["ann", "bob", "cat"][ref]?.getD "dan") ⟨none⟩
  target _ := none

theorem assignTargets_builds_cycle_trio :
    ∃ result, trio.assignTargets .keep trioHeap = some result ∧
      walk result.2.target 3 1 = some 1 := by
  rcases assignTargets_builds_cycle trio .keep trioHeap (by decide) (by decide) with
    ⟨result, assigned, _, _, _, tours⟩
  rcases tours 1 (by decide) with ⟨_, _, _, back⟩
  exact ⟨result, assigned, back⟩

section Trio

open Ascii

theorem cycle_after_removals_iff_stranger :
    ∃ result left, trio.assignTargets .keep trioHeap = some result ∧
      [3].foldlM (fun game player => game.removePlayer result.2 player) result.1 = some left ∧
      SingleCycle left.players fun hunter victim =>
        hunter ∈ left.players ∧ result.2.target hunter = some victim := by
  refine ⟨_, trio, rfl, ?_, ?_⟩
  · rw [List.foldlM_cons, removePlayer_eq]
    rfl
  · refine (@cycle_after_removals_iff trio .keep trioHeap _ _ [3] _ (by decide) rfl ?_
      (by decide)).mpr (by decide)
    rw [List.foldlM_cons, removePlayer_eq]
    rfl

/-- The second of three is removed; the first goes on aiming at it. -/
theorem removed_player_stays_target :
    ∃ result left, trio.assignTargets .keep trioHeap = some result ∧
      [1].foldlM (fun game player => game.removePlayer result.2 player) result.1 = some left ∧
      left.players = [0, 2] ∧ result.2.target 0 = some 1 ∧
      ¬SingleCycle left.players fun hunter victim =>
        hunter ∈ left.players ∧ result.2.target hunter = some victim := by
  refine ⟨_, { trio with players := [0, 2] }, rfl, ?_, rfl, by decide, fun single => ?_⟩
  · rw [List.foldlM_cons, removePlayer_eq]
    rfl
  · exact absurd (@SingleCycle.victim_mem _ _ _ single 0 1 (by decide)) (by decide)

end Trio

end Game

end AssassinGame
