import AssassinGame.Foundation.Ring
import AssassinGame.Foundation.Text
import AssassinGame.Model.Player
import AssassinGame.Model.RoomNumGenerator

/-! # The local game object and its ring of targets -/

namespace AssassinGame

abbrev PlayerRef := Nat

/-- The `Player` objects of one process: what each reference points to and the
object its `target` points to. -/
structure Heap where
  player : PlayerRef → Player
  target : PlayerRef → Option PlayerRef

namespace Heap

def setTarget (heap : Heap) (player target : PlayerRef) : Heap :=
  { heap with target := Function.update heap.target player (some target) }

@[simp] theorem setTarget_player (heap : Heap) (player target : PlayerRef) :
    (heap.setTarget player target).player = heap.player := rfl

@[simp] theorem setTarget_same (heap : Heap) (player target : PlayerRef) :
    (heap.setTarget player target).target player = some target := by
  simp [setTarget]

theorem setTarget_other {player other : PlayerRef} (different : other ≠ player)
    (heap : Heap) (target : PlayerRef) :
    (heap.setTarget player target).target other = heap.target other := by
  simp [setTarget, different]

end Heap

structure Game where
  roomNumber : Int
  playerCount : Int
  players : List PlayerRef
  timeLeft : String
  deriving DecidableEq

namespace Game

/-- `Game.init(roomNumber:playersNeeded:)`, with the text of the clock's date. -/
def init (roomNumber playersNeeded : Int) (date : String) : Game where
  roomNumber := roomNumber
  playerCount := playersNeeded
  timeLeft := date
  players := []

/-- `players[hunter].target = players[victim]`, where `none` is an index out of
range. -/
def aim (game : Game) (heap : Heap) (hunter victim : Nat) : Option Heap := do
  let player ← game.players[hunter]?
  let target ← game.players[victim]?
  some (heap.setTarget player target)

/-- `assignTargets()`, where `none` is a trap. -/
def assignTargets (game : Game) (shuffle : Shuffle PlayerRef) (heap : Heap) :
    Option (Game × Heap) := do
  let game := { game with players := shuffle game.players }
  let count : Int := game.players.length
  if count = 2 then
    let heap ← game.aim heap 0 1
    let heap ← game.aim heap 1 0
    return (game, heap)
  -- a closed range whose end lies before its start traps
  guard (0 ≤ count - 2)
  let heap ← (List.range (count - 1).toNat).foldlM
    (fun heap i => game.aim heap i (i + 1)) heap
  let heap ← game.aim heap (count - 1).toNat 0
  return (game, heap)

/-- The loop of `removePlayer(_:)` from the index `i` on, where `none` is an index out of
range. The index also moves on past the place of a removed player. -/
def removePlayer.loop [Canonical] (heap : Heap) (player : PlayerRef) (players : List PlayerRef)
    (i : Nat) : Option (List PlayerRef) :=
  if inside : i < players.length then do
    let current ← players[i]?
    if SameText (heap.player current).name (heap.player player).name then
      removePlayer.loop heap player (players.eraseIdx i) (i + 1)
    else removePlayer.loop heap player players (i + 1)
  else some players
termination_by players.length - i
decreasing_by all_goals grind [List.length_eraseIdx]

def removePlayer [Canonical] (game : Game) (heap : Heap) (player : PlayerRef) : Option Game := do
  let players ← removePlayer.loop heap player game.players 0
  return { game with players := players }

/-! ## Removals -/

/-- What the loop leaves: the player right after a removed one is passed over. -/
def remaining (removed : PlayerRef → Bool) : List PlayerRef → List PlayerRef
  | [] => []
  | player :: rest =>
      if removed player then
        match rest with
        | [] => []
        | passed :: rest => passed :: remaining removed rest
      else player :: remaining removed rest

theorem remaining_kept {removed : PlayerRef → Bool} {player : PlayerRef}
    (stays : removed player = false) (rest : List PlayerRef) :
    remaining removed (player :: rest) = player :: remaining removed rest := by
  cases rest <;> simp [remaining, stays]

section Loop

variable [Canonical]

def named (heap : Heap) (player other : PlayerRef) : Bool :=
  decide (SameText (heap.player other).name (heap.player player).name)

variable {heap : Heap} {player current : PlayerRef} {front back : List PlayerRef}

theorem removePlayer.loop_removed (goes : named heap player current = true) :
    removePlayer.loop heap player (front ++ current :: back) front.length =
      removePlayer.loop heap player (front ++ back) (front.length + 1) := by
  rw [removePlayer.loop, dif_pos (by simp)]
  have same := of_decide_eq_true goes
  simp [List.eraseIdx_append_of_length_le, same]

theorem removePlayer.loop_kept (stays : named heap player current = false) :
    removePlayer.loop heap player (front ++ current :: back) front.length =
      removePlayer.loop heap player (front ++ [current] ++ back)
        (front ++ [current]).length := by
  rw [removePlayer.loop, dif_pos (by simp)]
  have other := of_decide_eq_false stays
  simp [other]

theorem removePlayer.loop_done {players : List PlayerRef} {i : Nat}
    (done : players.length ≤ i) : removePlayer.loop heap player players i = some players := by
  rw [removePlayer.loop, dif_neg (by omega)]

/-- Seen from its index, the loop runs over the rest of the players. -/
theorem removePlayer.loop_eq (heap : Heap) (player : PlayerRef) (front back : List PlayerRef) :
    removePlayer.loop heap player (front ++ back) front.length =
      some (front ++ remaining (named heap player) back) := by
  induction back using remaining.induct (named heap player) generalizing front with
  | case1 => simp [loop_done, remaining]
  | case2 current goes =>
      rw [loop_removed goes, loop_done (by simp)]
      simp [remaining, goes]
  | case3 current goes passed rest induction =>
      have next := induction (front ++ [passed])
      rw [loop_removed goes]
      simpa [remaining, goes] using next
  | case4 current rest stays induction =>
      have kept := Bool.eq_false_iff.mpr stays
      have next := induction (front ++ [current])
      rw [loop_kept kept, next, remaining_kept kept]
      simp

theorem removePlayer_eq (game : Game) (heap : Heap) (player : PlayerRef) :
    game.removePlayer heap player =
      some { game with players := remaining (named heap player) game.players } := by
  have looped := removePlayer.loop_eq heap player [] game.players
  simp only [List.nil_append, List.length_nil] at looped
  simp [removePlayer, looped]

end Loop

theorem remaining_sublist (removed : PlayerRef → Bool) (players : List PlayerRef) :
    (remaining removed players).Sublist players := by
  induction players using remaining.induct removed with
  | case1 => exact .slnil
  | case2 current goes => simp [remaining, goes]
  | case3 current goes passed rest induction =>
      have shorter := (induction.cons_cons passed).cons current
      simpa [remaining, goes] using shorter
  | case4 current rest stays induction =>
      rw [remaining_kept (Bool.eq_false_iff.mpr stays)]
      exact induction.cons_cons current

/-- The loop passes over players, but never over the first one that is to be removed. -/
theorem remaining_eq_self_iff {removed : PlayerRef → Bool} {players : List PlayerRef} :
    remaining removed players = players ↔ ∀ player ∈ players, removed player = false := by
  induction players using remaining.induct removed with
  | case1 => simp [remaining]
  | case2 current goes => simp [remaining, goes]
  | case3 current goes passed rest induction =>
      refine iff_of_false (fun same => ?_) fun stay => ?_
      · have shorter := (remaining_sublist removed rest).length_le
        have length := congrArg List.length same
        simp only [remaining, goes, if_true, List.length_cons] at length
        omega
      · have stays := stay current List.mem_cons_self
        rw [goes] at stays
        cases stays
  | case4 current rest stays induction =>
      have kept := Bool.eq_false_iff.mpr stays
      rw [remaining_kept kept, List.cons.injEq, induction]
      simp [kept]

/-! ## The ring -/

/-- The players at the first `count` positions aim at the player after them. -/
def Linked (order : List PlayerRef) (count : Nat) (heap : Heap) : Prop :=
  ∀ position < count, ∀ hunter, order[position]? = some hunter →
    heap.target hunter = order[position + 1]?

theorem aim_eq_some {game : Game} {hunter victim : Nat} {player target : PlayerRef}
    (hunterAt : game.players[hunter]? = some player)
    (victimAt : game.players[victim]? = some target) (heap : Heap) :
    game.aim heap hunter victim = some (heap.setTarget player target) := by
  simp [aim, hunterAt, victimAt]

theorem position_unique {order : List PlayerRef} (nodup : order.Nodup) {left right : Nat}
    {player : PlayerRef} (leftAt : order[left]? = some player)
    (rightAt : order[right]? = some player) : left = right := by
  rcases List.getElem?_eq_some_iff.mp leftAt with ⟨leftInside, rfl⟩
  rcases List.getElem?_eq_some_iff.mp rightAt with ⟨rightInside, same⟩
  exact (nodup.getElem_inj_iff.mp same).symm

theorem linked_loop {game : Game} (nodup : game.players.Nodup) (heap : Heap) (count : Nat)
    (inside : count < game.players.length) :
    ∃ linked, (List.range count).foldlM (fun heap i => game.aim heap i (i + 1)) heap =
        some linked ∧
      linked.player = heap.player ∧ Linked game.players count linked := by
  induction count with
  | zero => exact ⟨heap, rfl, rfl, fun position none' => absurd none' (Nat.not_lt_zero _)⟩
  | succ count induction =>
      rcases induction (by omega) with ⟨before, performed, same, linked⟩
      have hunterAt := List.getElem?_eq_getElem (show count < game.players.length by omega)
      have victimAt := List.getElem?_eq_getElem inside
      refine ⟨before.setTarget game.players[count] game.players[count + 1], ?_, same, ?_⟩
      · rw [List.range_succ, List.foldlM_append, performed]
        simp [aim_eq_some hunterAt victimAt]
      · intro position below hunter found
        by_cases last : position = count
        · subst last
          rw [hunterAt, Option.some.injEq] at found
          subst found
          rw [Heap.setTarget_same, victimAt]
        · have other : hunter ≠ game.players[count] := fun same =>
            last (position_unique nodup found (same ▸ hunterAt))
          rw [Heap.setTarget_other other]
          exact linked position (by omega) hunter found

theorem linked_close {game : Game} (nodup : game.players.Nodup) {heap : Heap} {count : Nat}
    (size : game.players.length = count + 1) (linked : Linked game.players count heap) :
    ∃ closed, game.aim heap count 0 = some closed ∧ closed.player = heap.player ∧
      ∀ hunter ∈ game.players, ∀ victim, closed.target hunter = some victim ↔
        Ring.Follows game.players hunter victim := by
  have lastAt := List.getElem?_eq_getElem (show count < game.players.length by omega)
  have firstAt := List.getElem?_eq_getElem (show 0 < game.players.length by omega)
  refine ⟨_, aim_eq_some lastAt firstAt heap, Heap.setTarget_player _ _ _, ?_⟩
  have next : ∀ position hunter, game.players[position]? = some hunter →
      (heap.setTarget game.players[count] game.players[0]).target hunter =
        game.players[(position + 1) % game.players.length]? := by
    intro position hunter found
    rcases List.getElem?_eq_some_iff.mp found with ⟨inside, _⟩
    by_cases last : position = count
    · subst last
      rw [lastAt, Option.some.injEq] at found
      subst found
      rw [Heap.setTarget_same, ← size, Nat.mod_self, firstAt]
    · have other : hunter ≠ game.players[count] := fun same =>
        last (position_unique nodup found (same ▸ lastAt))
      rw [Heap.setTarget_other other, Nat.mod_eq_of_lt (by omega)]
      exact linked position (by omega) hunter found
  intro hunter member victim
  rcases List.getElem_of_mem member with ⟨position, inside, rfl⟩
  rw [next position _ (List.getElem?_eq_getElem inside)]
  constructor
  · intro found
    exact ⟨position, inside, List.getElem?_eq_getElem inside, found⟩
  · intro ⟨other, _, found, victimAt⟩
    rw [position_unique nodup (List.getElem?_eq_getElem inside) found]
    exact victimAt

/-- With two players or more, `assignTargets` runs the loop and closes the ring: its branch for
two players is the loop's only pass. -/
theorem assigned_of_loop {game : Game} {shuffle : Shuffle PlayerRef} {heap linked closed : Heap}
    (two : 2 ≤ game.players.length)
    (looped : (List.range (game.players.length - 1)).foldlM
      (fun heap i => Game.aim { game with players := shuffle game.players } heap i (i + 1)) heap =
        some linked)
    (aimed : Game.aim { game with players := shuffle game.players } linked
      (game.players.length - 1) 0 = some closed) :
    game.assignTargets shuffle heap =
      some ({ game with players := shuffle game.players }, closed) := by
  have length := (shuffle.perm game.players).length_eq
  by_cases pair : game.players.length = 2
  · rw [pair] at looped aimed
    simp only [List.range_succ, List.range_zero, List.nil_append, List.foldlM_cons,
      List.foldlM_nil, bind_pure] at looped
    simp [assignTargets, length, pair, looped, aimed]
  · have count : ((game.players.length : Int) - 1).toNat = game.players.length - 1 := by omega
    have notPair : (game.players.length : Int) ≠ 2 := by omega
    simp [assignTargets, length, count, two, notPair, looped, aimed, guard]

/-- With two players or more, everybody aims at the next player of the shuffled
order. -/
theorem assignTargets_spec (game : Game) (shuffle : Shuffle PlayerRef) (heap : Heap)
    (nodup : game.players.Nodup) (two : 2 ≤ game.players.length) :
    ∃ result, game.assignTargets shuffle heap = some result ∧
      result.1.players = shuffle game.players ∧ result.2.player = heap.player ∧
      ∀ hunter ∈ game.players, ∀ victim, result.2.target hunter = some victim ↔
        Ring.Follows (shuffle game.players) hunter victim := by
  have perm := shuffle.perm game.players
  have length := perm.length_eq
  rcases @linked_loop { game with players := shuffle game.players }
    (perm.nodup_iff.mpr nodup) heap (game.players.length - 1) (by simp only [length]; omega)
    with ⟨linked, looped, same, chain⟩
  rcases @linked_close { game with players := shuffle game.players }
    (perm.nodup_iff.mpr nodup) linked (game.players.length - 1) (by simp only [length]; omega)
    chain with ⟨closed, aimed, kept, ring⟩
  refine ⟨_, assigned_of_loop two ?_ aimed, rfl, kept.trans same,
    fun hunter member => ring hunter (perm.mem_iff.mpr member)⟩
  exact looped

end Game

end AssassinGame
