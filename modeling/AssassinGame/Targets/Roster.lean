import AssassinGame.Foundation.Transition
import AssassinGame.Targets.Cycle

/-! # The array of players

Players are appended to the array and removed from it, and targets are assigned to the players
that are in it. The loop of `removePlayer` passes over the player after each one it removes, and
the range of the loop of `assignTargets` ends before it starts when there are fewer than two
players.
-/

namespace AssassinGame

open Transition

namespace Game

/-! ## Removing by name -/

section Filter

variable {removed : PlayerRef → Bool} {player : PlayerRef} {rest : List PlayerRef}

/-- No two players in a row are to be removed. -/
def Apart (removed : PlayerRef → Bool) (players : List PlayerRef) : Prop :=
  players.IsChain fun left right => ¬(removed left = true ∧ removed right = true)

instance (removed : PlayerRef → Bool) (players : List PlayerRef) :
    Decidable (Apart removed players) :=
  inferInstanceAs (Decidable (players.IsChain _))

theorem apart_cons_of_stays (stays : removed player = false) :
    Apart removed (player :: rest) ↔ Apart removed rest := by
  cases rest with
  | nil => exact iff_of_true (.singleton _) .nil
  | cons next rest => simp [Apart, List.isChain_cons_cons, stays]

/-- What the loop leaves is what the filter leaves if and only if no two players in a row are to
be removed. -/
theorem remaining_eq_filter_iff (removed : PlayerRef → Bool) (players : List PlayerRef) :
    remaining removed players = players.filter (fun player => !removed player) ↔
      Apart removed players := by
  induction players using remaining.induct removed with
  | case1 => exact iff_of_true rfl .nil
  | case2 current goes => exact iff_of_true (by simp [remaining, goes]) (.singleton _)
  | case3 current goes passed rest induction =>
      have left : remaining removed (current :: passed :: rest) =
          passed :: remaining removed rest := by simp [remaining, goes]
      have kept : (current :: passed :: rest).filter (fun player => !removed player) =
          (passed :: rest).filter fun player => !removed player := by simp [goes]
      rw [left, kept]
      cases passes : removed passed with
      | false =>
          have both : Apart removed (current :: passed :: rest) ↔ Apart removed rest := by
            rw [Apart, List.isChain_cons_cons, ← Apart, apart_cons_of_stays passes]
            simp [passes]
          rw [both, ← induction]
          simp [passes]
      | true =>
          -- the player passed over should have gone as well
          refine iff_of_false (fun same => ?_) fun apart => ?_
          · have member : passed ∈ (passed :: rest).filter fun player => !removed player :=
              same ▸ List.mem_cons_self
            simp [passes] at member
          · exact (List.isChain_cons_cons.mp apart).1 ⟨goes, passes⟩
  | case4 current rest stays induction =>
      have kept := Bool.eq_false_iff.mpr stays
      rw [remaining_kept kept, apart_cons_of_stays kept, ← induction]
      simp [kept]

end Filter

/-- `removePlayer` never traps, and leaves exactly the players with other names if and only if no
two players in a row have the name that is removed. -/
theorem removePlayer_filters_iff [Canonical] (game : Game) (heap : Heap) (player : PlayerRef) :
    ∃ left, game.removePlayer heap player = some left ∧
      (left.players = game.players.filter
          (fun other => ¬SameText (heap.player other).name (heap.player player).name) ↔
        game.players.IsChain fun one next =>
          ¬(SameText (heap.player one).name (heap.player player).name ∧
            SameText (heap.player next).name (heap.player player).name)) := by
  refine ⟨_, removePlayer_eq game heap player, ?_⟩
  have filters := remaining_eq_filter_iff (named heap player) game.players
  simpa only [Apart, named, decide_eq_true_eq, decide_not] using filters

section Namesakes

open Ascii

def namesakeHeap : Heap where
  player ref := Player.init (["ann", "bob", "bob"][ref]?.getD "dan") ⟨none⟩
  target _ := none

/-- The second of two players with one name stays. -/
theorem removePlayer_passes_over :
    ∃ left, trio.removePlayer namesakeHeap 1 = some left ∧ left.players = [0, 2] ∧
      left.players ≠ trio.players.filter fun other =>
        ¬SameText (namesakeHeap.player other).name (namesakeHeap.player 1).name := by
  refine ⟨_, removePlayer_eq trio namesakeHeap 1, ?_, ?_⟩ <;> decide

end Namesakes

/-! ## Assigning targets -/

inductive Change
  | append (player : PlayerRef)
  | remove (player : PlayerRef)

def change [Canonical] (heap : Heap) (game : Game) : Change → Option Game
  | .append player => some { game with players := game.players ++ [player] }
  | .remove player => game.removePlayer heap player

theorem exists_run_change [Canonical] (heap : Heap) (game : Game) (changes : List Change) :
    ∃ left, run (change heap) game changes = some left := by
  induction changes generalizing game with
  | nil => exact ⟨game, rfl⟩
  | cons first changes induction =>
      have changed : ∃ next, game.change heap first = some next := by
        cases first with
        | append player => exact ⟨_, rfl⟩
        | remove player => exact ⟨_, removePlayer_eq game heap player⟩
      rcases changed with ⟨next, stepped⟩
      rcases induction next with ⟨left, rest⟩
      exact ⟨left, run_cons_eq_some.mpr ⟨next, stepped, rest⟩⟩

/-- The player's target is nil or one of the players. -/
def AimsWithin (players : List PlayerRef) (heap : Heap) (player : PlayerRef) : Prop :=
  ∀ target ∈ heap.target player, target ∈ players

section Aims

variable {game : Game} {heap : Heap}

theorem aimsWithin_setTarget {players : List PlayerRef} {hunter victim player : PlayerRef}
    (member : victim ∈ players) (before : player = hunter ∨ AimsWithin players heap player) :
    AimsWithin players (heap.setTarget hunter victim) player := by
  intro target aims
  by_cases own : player = hunter
  · subst own
    rw [Heap.setTarget_same, Option.mem_some_iff] at aims
    exact aims ▸ member
  · rw [Heap.setTarget_other own] at aims
    exact before.resolve_left own target aims

theorem exists_aim {hunter victim : Nat} (first : hunter < game.players.length)
    (second : victim < game.players.length) (heap : Heap) :
    ∃ aimed, game.aim heap hunter victim = some aimed ∧ ∀ player,
      (player = game.players[hunter] ∨ AimsWithin game.players heap player) →
        AimsWithin game.players aimed player :=
  ⟨_, aim_eq_some (List.getElem?_eq_getElem first) (List.getElem?_eq_getElem second) heap,
    fun _ => aimsWithin_setTarget (List.getElem_mem second)⟩

/-- The loop over the first `count` places runs to its end, even where one player stands at
several places. -/
theorem exists_loop (heap : Heap) (count : Nat) (inside : count < game.players.length) :
    ∃ linked, (List.range count).foldlM (fun heap i => game.aim heap i (i + 1)) heap =
        some linked ∧ ∀ player,
      (player ∈ game.players.take count ∨ AimsWithin game.players heap player) →
        AimsWithin game.players linked player := by
  induction count with
  | zero => exact ⟨heap, rfl, fun player before => before.resolve_left (by simp)⟩
  | succ count induction =>
      rcases induction (by omega) with ⟨before, performed, aims⟩
      rcases exists_aim (show count < game.players.length by omega) inside before with
        ⟨aimed, last, within⟩
      refine ⟨aimed, ?_, fun player earlier => within player ?_⟩
      · rw [List.range_succ, List.foldlM_append, performed]
        simp [last]
      · rw [List.take_add_one, List.getElem?_eq_getElem (by omega), Option.toList_some,
          List.mem_append, List.mem_singleton] at earlier
        rcases earlier with (front | own) | old
        · exact .inr (aims player (.inl front))
        · exact .inl own
        · exact .inr (aims player (.inr old))

/-- With two players or more, at whatever places, `assignTargets` runs to its end, and those
who are in the array, or had no target outside it, have none outside it then. -/
theorem exists_assigned (two : 2 ≤ game.players.length) (shuffle : Shuffle PlayerRef)
    (heap : Heap) :
    ∃ result, game.assignTargets shuffle heap = some result ∧ ∀ player,
      (player ∈ game.players ∨ AimsWithin game.players heap player) →
        AimsWithin result.1.players result.2 player := by
  have length := (shuffle.perm game.players).length_eq
  have same (player : PlayerRef) :
      (player ∈ game.players ∨ AimsWithin game.players heap player) ↔
        (player ∈ shuffle game.players ∨ AimsWithin (shuffle game.players) heap player) := by
    simp only [AimsWithin, shuffle.mem_iff]
  simp only [same]
  rcases @exists_loop { game with players := shuffle game.players } heap
    (game.players.length - 1) (by simp only; omega) with ⟨linked, looped, within⟩
  rcases @exists_aim { game with players := shuffle game.players }
    (game.players.length - 1) 0 (by simp only; omega) (by simp only; omega) linked
    with ⟨closed, aimed, all⟩
  refine ⟨_, assigned_of_loop two looped aimed, fun player before => all player ?_⟩
  rcases before with member | old
  · rcases List.getElem_of_mem member with ⟨place, inside, rfl⟩
    by_cases last : place = game.players.length - 1
    · subst last
      exact .inl rfl
    · refine .inr (within _ (.inl ?_))
      exact List.mem_take_iff_getElem.mpr ⟨place, by simp only; omega, rfl⟩
  · exact .inr (within player (.inr old))

end Aims

/-- Whatever has been appended and removed, `assignTargets` runs to its end, and leaves nobody
with a target outside the array who is in it or had no target, if and only if the array holds
two players or more. -/
theorem assignTargets_completes_iff [Canonical] (roomNumber playersNeeded : Int) (date : String)
    (heap : Heap) (changes : List Change) (shuffle : Shuffle PlayerRef) :
    ∃ game, run (change heap) (Game.init roomNumber playersNeeded date) changes = some game ∧
      ((∃ result, game.assignTargets shuffle heap = some result ∧ ∀ player,
          (player ∈ game.players ∨ heap.target player = none) →
            ∀ target ∈ result.2.target player, target ∈ result.1.players) ↔
        2 ≤ game.players.length) := by
  rcases exists_run_change heap (Game.init roomNumber playersNeeded date) changes with
    ⟨game, changed⟩
  refine ⟨game, changed, fun completes => ?_, fun two => ?_⟩
  · rcases completes with ⟨result, assigned, _⟩
    exact two_of_assigned assigned
  · rcases exists_assigned two shuffle heap with ⟨result, assigned, within⟩
    refine ⟨result, assigned, fun player fresh => within player (fresh.imp_right ?_)⟩
    intro none' target aims
    rw [none'] at aims
    cases aims

section Traps

open Ascii

/-- A game with nobody in it, and one whose only player is left, trap. -/
theorem assignTargets_traps :
    (Game.init 7 2 "noon").assignTargets .keep trioHeap = none ∧
    ∃ game, run (change trioHeap) (Game.init 7 2 "noon")
        [.append 0, .append 1, .remove 1] = some game ∧
      game.players = [0] ∧ game.assignTargets .keep trioHeap = none := by
  refine ⟨rfl, ⟨7, 2, [0], "noon"⟩, ?_, rfl, rfl⟩
  refine run_cons_eq_some.mpr ⟨_, rfl, run_cons_eq_some.mpr ⟨_, rfl, ?_⟩⟩
  exact run_cons_eq_some.mpr ⟨_, removePlayer_eq _ _ _, by decide⟩

end Traps

end Game

end AssassinGame
