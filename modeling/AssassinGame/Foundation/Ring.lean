import Mathlib.Data.List.Rotate
import Mathlib.GroupTheory.Perm.Cycle.Concrete

/-! # Rings: relations that form one cycle

A relation on the members of a list is a ring when the members can be put in
one circular order in which it relates each of them to the next.
-/

namespace AssassinGame.Ring

variable {α : Type u} {β : Type v}

/-- `victim` stands right after `hunter` in the circular order. -/
def Follows (order : List α) (hunter victim : α) : Prop :=
  ∃ position, position < order.length ∧ order[position]? = some hunter ∧
    order[(position + 1) % order.length]? = some victim

def IsRing (members : List α) (aims : α → α → Prop) : Prop :=
  ∃ order : List α, order.Perm members ∧
    ∀ hunter victim, aims hunter victim ↔ Follows order hunter victim

/-- `aims` is one cyclic permutation that moves exactly the members. -/
def SingleCycle (members : List α) (aims : α → α → Prop) : Prop :=
  ∃ cycle : Equiv.Perm α, cycle.IsCycle ∧
    (∀ member, cycle member ≠ member ↔ member ∈ members) ∧
    ∀ hunter victim, aims hunter victim ↔ hunter ∈ members ∧ cycle hunter = victim

theorem follows_iff_formPerm [DecidableEq α] {order : List α} (nodup : order.Nodup)
    {hunter victim : α} :
    Follows order hunter victim ↔ hunter ∈ order ∧ order.formPerm hunter = victim := by
  constructor
  · rintro ⟨position, inside, found, next⟩
    rcases List.getElem?_eq_some_iff.mp found with ⟨_, rfl⟩
    rcases List.getElem?_eq_some_iff.mp next with ⟨_, rfl⟩
    exact ⟨List.getElem_mem inside, List.formPerm_apply_getElem order nodup position inside⟩
  · rintro ⟨member, rfl⟩
    rcases List.getElem_of_mem member with ⟨position, inside, rfl⟩
    refine ⟨position, inside, by simp, ?_⟩
    rw [List.formPerm_apply_getElem order nodup position inside]
    simp

theorem follows_map {order : List α} (rename : α → β) {hunter victim : β} :
    Follows (order.map rename) hunter victim ↔
      ∃ left right, Follows order left right ∧ rename left = hunter ∧
        rename right = victim := by
  constructor
  · rintro ⟨position, inside, found, next⟩
    rw [List.length_map] at inside next
    rw [List.getElem?_map, Option.map_eq_some_iff] at found next
    rcases found with ⟨left, leftAt, rfl⟩
    rcases next with ⟨right, rightAt, rfl⟩
    exact ⟨left, right, ⟨position, inside, leftAt, rightAt⟩, rfl, rfl⟩
  · rintro ⟨left, right, ⟨position, inside, leftAt, rightAt⟩, rfl, rfl⟩
    exact ⟨position, by simpa using inside, by simp [leftAt], by simp [rightAt]⟩

theorem IsRing.singleCycle [DecidableEq α] {members : List α} {aims : α → α → Prop}
    (ring : IsRing members aims) (nodup : members.Nodup) (two : 2 ≤ members.length) :
    SingleCycle members aims := by
  rcases ring with ⟨order, perm, next⟩
  have orderNodup : order.Nodup := perm.nodup_iff.mpr nodup
  have orderTwo : 2 ≤ order.length := perm.length_eq ▸ two
  refine ⟨order.formPerm, List.isCycle_formPerm orderNodup orderTwo, ?_, ?_⟩
  · intro member
    rw [← perm.mem_iff]
    constructor
    · exact List.mem_of_formPerm_apply_ne
    · intro inside
      exact (List.formPerm_apply_mem_ne_self_iff order orderNodup member inside).mpr orderTwo
  · intro hunter victim
    rw [next, follows_iff_formPerm orderNodup, perm.mem_iff]

theorem SingleCycle.hunter_unique {members : List α} {aims : α → α → Prop}
    (single : SingleCycle members aims) {left right victim : α}
    (leftAims : aims left victim) (rightAims : aims right victim) : left = right := by
  rcases single with ⟨cycle, _, _, next⟩
  exact cycle.injective (((next left victim).mp leftAims).2.trans
    ((next right victim).mp rightAims).2.symm)

theorem SingleCycle.victim_mem {members : List α} {aims : α → α → Prop}
    (single : SingleCycle members aims) {hunter victim : α} (hunts : aims hunter victim) :
    victim ∈ members := by
  rcases single with ⟨cycle, _, moves, next⟩
  rcases (next hunter victim).mp hunts with ⟨inside, rfl⟩
  refine (moves _).mp fun same => (moves hunter).mpr inside ?_
  exact cycle.injective same

/-! ## Walking along a ring -/

/-- `next` leads from each member of the order to the one right after it. -/
def Links (order : List α) (next : α → Option α) : Prop :=
  ∀ hunter ∈ order, ∀ victim, next hunter = some victim ↔ Follows order hunter victim

def walk (next : α → Option α) : Nat → α → Option α
  | 0, member => some member
  | steps + 1, member => (walk next steps member).bind next

theorem Follows.victim_mem {order : List α} {hunter victim : α}
    (follows : Follows order hunter victim) : victim ∈ order := by
  rcases follows with ⟨position, _, _, found⟩
  exact List.mem_of_getElem? found

theorem Follows.hunter_mem {order : List α} {hunter victim : α}
    (follows : Follows order hunter victim) : hunter ∈ order := by
  rcases follows with ⟨position, inside, found, _⟩
  exact List.mem_of_getElem? found

theorem Links.exists_next {order : List α} {next : α → Option α} (links : Links order next)
    {hunter : α} (inside : hunter ∈ order) : ∃ victim ∈ order, next hunter = some victim := by
  rcases List.getElem_of_mem inside with ⟨position, below, rfl⟩
  have there : (position + 1) % order.length < order.length := Nat.mod_lt _ (by omega)
  refine ⟨order[(position + 1) % order.length], List.getElem_mem there, ?_⟩
  refine (links _ (List.getElem_mem below) _).mpr ⟨position, below, ?_, ?_⟩
  · exact List.getElem?_eq_getElem below
  · exact List.getElem?_eq_getElem there

theorem Links.isRing {order : List α} {next : α → Option α} (links : Links order next) :
    IsRing order fun hunter victim => hunter ∈ order ∧ next hunter = some victim := by
  refine ⟨order, .refl order, fun hunter victim => ?_⟩
  constructor
  · intro both
    exact (links hunter both.1 victim).mp both.2
  · intro follows
    exact ⟨follows.hunter_mem, (links hunter follows.hunter_mem victim).mpr follows⟩

section Walk

variable {order : List α} {next : α → Option α}

theorem walk_eq_getElem? (links : Links order next) {position : Nat}
    (inside : position < order.length) (steps : Nat) :
    walk next steps order[position] = order[(position + steps) % order.length]? := by
  induction steps with
  | zero => simp [walk, Nat.mod_eq_of_lt inside]
  | succ steps induction =>
      have here : (position + steps) % order.length < order.length :=
        Nat.mod_lt _ (by omega)
      have there : (position + (steps + 1)) % order.length < order.length :=
        Nat.mod_lt _ (by omega)
      rw [walk, induction, List.getElem?_eq_getElem here, Option.bind_some,
        List.getElem?_eq_getElem there]
      apply (links _ (List.getElem_mem here) _).mpr
      refine ⟨_, here, List.getElem?_eq_getElem here, ?_⟩
      rw [Nat.mod_add_mod, Nat.add_assoc, List.getElem?_eq_getElem there]

/-- A walk of as many steps as there are members visits each of them once and returns
to its start. -/
theorem walk_round (links : Links order next) {member : α} (inside : member ∈ order) :
    ∃ tour : List α, tour.Perm order ∧
      (∀ steps < order.length, walk next steps member = tour[steps]?) ∧
      walk next order.length member = some member := by
  rcases List.getElem_of_mem inside with ⟨position, below, rfl⟩
  refine ⟨order.rotate position, List.rotate_perm order position, ?_, ?_⟩
  · intro steps short
    rw [walk_eq_getElem? links below, List.getElem?_rotate short, Nat.add_comm]
  · rw [walk_eq_getElem? links below, Nat.add_mod_right, Nat.mod_eq_of_lt below,
      List.getElem?_eq_getElem below]

/-- What is passed on along the ring reaches every member from any one. -/
theorem Links.all_of_one (links : Links order next) {kept : α → Prop}
    (passed : ∀ hunter ∈ order, kept hunter → ∀ victim, next hunter = some victim →
      kept victim)
    {member : α} (inside : member ∈ order) (here : kept member) :
    ∀ other ∈ order, kept other := by
  rcases walk_round links inside with ⟨tour, perm, visits, _⟩
  have along : ∀ steps < order.length, ∀ found, walk next steps member = some found →
      kept found := by
    intro steps
    induction steps with
    | zero =>
        intro _ found reached
        cases reached
        exact here
    | succ steps induction =>
        intro short found reached
        rcases Option.bind_eq_some_iff.mp reached with ⟨before, walked, last⟩
        have visited : before ∈ order := by
          rw [visits steps (by omega)] at walked
          exact perm.mem_iff.mp (List.mem_of_getElem? walked)
        exact passed before visited (induction (by omega) before walked) found last
  intro other member
  rcases List.getElem_of_mem (perm.mem_iff.mpr member) with ⟨steps, short, rfl⟩
  rw [perm.length_eq] at short
  exact along steps short _ ((visits steps short).trans (List.getElem?_eq_getElem _))

theorem Links.exists_hunter (links : Links order next) {victim : α}
    (inside : victim ∈ order) : ∃ hunter ∈ order, next hunter = some victim := by
  rcases walk_round links inside with ⟨tour, perm, visits, round⟩
  have positive := List.length_pos_of_mem inside
  rw [show order.length = order.length - 1 + 1 by omega] at round
  rcases Option.bind_eq_some_iff.mp round with ⟨hunter, walked, last⟩
  rw [visits _ (by omega)] at walked
  exact ⟨hunter, perm.mem_iff.mp (List.mem_of_getElem? walked), last⟩

end Walk

end AssassinGame.Ring
