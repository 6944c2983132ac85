import AssassinGame.Foundation.Ring
import Mathlib.Algebra.BigOperators.Pi
import Mathlib.Data.Fintype.BigOperators
import Mathlib.Data.Fintype.CardEmbedding
import Mathlib.Data.List.Permutation

/-! # How draws can fall

A draw puts the members of a list into some order. The chance of an outcome is the number of
orders that have it over the number of all orders; where draws are made independently of each
other, the orders are counted together.
-/

namespace AssassinGame.Draws

section Orders

variable {α : Type u} [DecidableEq α] {values order front rest : List α} {value : α}

def orders (values : List α) : Finset (List α) :=
  values.permutations.toFinset

@[simp] theorem mem_orders : order ∈ orders values ↔ order.Perm values := by
  simp [orders]

theorem card_orders (nodup : values.Nodup) :
    (orders values).card = values.length.factorial := by
  rw [orders, List.toFinset_card_of_nodup (List.nodup_permutations values nodup),
    List.length_permutations]

theorem card_orders_front (nodup : values.Nodup) (perm : (front ++ rest).Perm values) :
    ((orders values).filter (front <+: ·)).card = rest.length.factorial := by
  have same : (orders values).filter (front <+: ·) = (orders rest).image (front ++ ·) := by
    ext order
    simp only [Finset.mem_filter, mem_orders, Finset.mem_image]
    constructor
    · intro ⟨ordered, back, shape⟩
      subst shape
      exact ⟨back, (List.perm_append_left_iff front).mp (ordered.trans perm.symm), rfl⟩
    · intro ⟨back, ordered, shape⟩
      subst shape
      exact ⟨((List.perm_append_left_iff front).mpr ordered).trans perm, back, rfl⟩
  have split := perm.nodup_iff.mpr nodup
  rw [same, Finset.card_image_of_injective _ (List.append_right_injective front),
    card_orders (List.nodup_append.mp split).2.1]

theorem card_orders_last (nodup : values.Nodup) (member : value ∈ values) :
    ((orders values).filter fun order => order.getLast? = some value).card =
      (values.length - 1).factorial := by
  have same : (orders values).filter (fun order => order.getLast? = some value) =
      (orders (values.erase value)).image (· ++ [value]) := by
    ext order
    simp only [Finset.mem_filter, mem_orders, Finset.mem_image, List.getLast?_eq_some_iff]
    have perm : (values.erase value ++ [value]).Perm values :=
      (List.perm_append_singleton value _).trans (List.perm_cons_erase member).symm
    constructor
    · intro ⟨ordered, front, shape⟩
      subst shape
      exact ⟨front, (List.perm_append_right_iff [value]).mp (ordered.trans perm.symm), rfl⟩
    · intro ⟨front, ordered, shape⟩
      subst shape
      exact ⟨((List.perm_append_right_iff [value]).mpr ordered).trans perm, front, rfl⟩
  rw [same, Finset.card_image_of_injective _ (List.append_left_injective [value]),
    card_orders (nodup.erase value), List.length_erase_of_mem member]

/-- A pick that falls on each of its choices in equally many orders. -/
theorem card_orders_of_even {β : Type v} [DecidableEq β] {pick : List α → β}
    {choices : Finset β} {ways : Nat} (lands : ∀ order ∈ orders values, pick order ∈ choices)
    (even : ∀ choice ∈ choices, ((orders values).filter (pick · = choice)).card = ways) :
    (orders values).card = choices.card * ways := by
  rw [Finset.card_eq_sum_card_fiberwise lands, Finset.sum_congr rfl even, Finset.sum_const,
    smul_eq_mul]

end Orders

/-! ## Draws made independently -/

section Independent

variable {ι : Type u} [Fintype ι] [DecidableEq ι] {α : Type v} [DecidableEq α]

/-- The ways in which a draw for each index can fall. -/
def draws (values : ι → List α) : Finset (ι → List α) :=
  Fintype.piFinset fun index => orders (values index)

@[simp] theorem mem_draws {values draw : ι → List α} :
    draw ∈ draws values ↔ ∀ index, (draw index).Perm (values index) := by
  simp [draws]

theorem card_draws {values : ι → List α} (nodup : ∀ index, (values index).Nodup) :
    (draws values).card = ∏ index, (values index).length.factorial := by
  rw [draws, Fintype.card_piFinset]
  exact Finset.prod_congr rfl fun index _ => card_orders (nodup index)

/-- Where every draw picks each of its choices in equally many orders, it is enough to count
the choices that lead to an outcome. -/
theorem card_draws_filter {β : Type w} [DecidableEq β] {values : ι → List α}
    {pick : ι → List α → β} {choices : ι → Finset β} {ways : ι → Nat}
    (lands : ∀ index, ∀ order ∈ orders (values index), pick index order ∈ choices index)
    (even : ∀ index, ∀ choice ∈ choices index,
      ((orders (values index)).filter (pick index · = choice)).card = ways index)
    (Outcome : (ι → β) → Prop) [DecidablePred Outcome] :
    ((draws values).filter fun draw => Outcome fun index => pick index (draw index)).card =
      ((Fintype.piFinset choices).filter Outcome).card * ∏ index, ways index := by
  have falls : ∀ draw ∈ (draws values).filter
      (fun draw => Outcome fun index => pick index (draw index)),
      (fun index => pick index (draw index)) ∈ (Fintype.piFinset choices).filter Outcome := by
    intro draw member
    rw [Finset.mem_filter, mem_draws] at member
    rw [Finset.mem_filter, Fintype.mem_piFinset]
    exact ⟨fun index => lands index _ (mem_orders.mpr (member.1 index)), member.2⟩
  rw [Finset.card_eq_sum_card_fiberwise falls, ← smul_eq_mul, ← Finset.sum_const]
  refine Finset.sum_congr rfl fun choice chosen => ?_
  rw [Finset.mem_filter, Fintype.mem_piFinset] at chosen
  have fibre : {draw ∈ (draws values).filter
      (fun draw => Outcome fun index => pick index (draw index)) |
        (fun index => pick index (draw index)) = choice} =
      Fintype.piFinset fun index =>
        (orders (values index)).filter (pick index · = choice index) := by
    ext draw
    simp only [Finset.mem_filter, mem_draws, Fintype.mem_piFinset, mem_orders]
    constructor
    · intro ⟨⟨ordered, _⟩, picked⟩ index
      exact ⟨ordered index, congrFun picked index⟩
    · intro both
      have picked : (fun index => pick index (draw index)) = choice :=
        funext fun index => (both index).2
      exact ⟨⟨fun index => (both index).1, picked ▸ chosen.2⟩, picked⟩
  rw [fibre, Fintype.card_piFinset]
  exact Finset.prod_congr rfl fun index _ => even index _ (chosen.1 index)

theorem card_injective_choices {β : Type w} [DecidableEq β] (choices : Finset β) :
    ((Fintype.piFinset fun _ : ι => choices).filter Function.Injective).card =
      choices.card.descFactorial (Fintype.card ι) := by
  rw [← Fintype.card_coe choices, ← Fintype.card_embedding_eq, ← Finset.card_univ]
  refine (Finset.card_bij (fun (choice : ι ↪ choices) _ index => (choice index : β))
    ?_ ?_ ?_).symm
  · intro choice _
    rw [Finset.mem_filter, Fintype.mem_piFinset]
    exact ⟨fun index => (choice index).2,
      Subtype.val_injective.comp choice.injective⟩
  · intro left _ right _ same
    ext index
    exact congrFun same index
  · intro choice chosen
    rw [Finset.mem_filter, Fintype.mem_piFinset] at chosen
    exact ⟨⟨fun index => ⟨choice index, chosen.1 index⟩, fun left right same =>
      chosen.2 (congrArg Subtype.val same)⟩, Finset.mem_univ _, rfl⟩

end Independent

/-! ## Rings

An order links each member to the next one. Orders that differ by a rotation are one ring.
-/

section Rings

open AssassinGame.Ring

variable {α : Type u} [DecidableEq α] {members left right order : List α}

theorem formPerm_eq_iff_isRotated (nodup : members.Nodup) (two : 2 ≤ members.length)
    (leftPerm : left.Perm members) (rightPerm : right.Perm members) :
    left.formPerm = right.formPerm ↔ left ~r right := by
  have long : ¬(left.length ≤ 1 ∧ right.length ≤ 1) := by
    rw [leftPerm.length_eq]
    omega
  rw [List.formPerm_eq_formPerm_iff (leftPerm.nodup_iff.mpr nodup)
    (rightPerm.nodup_iff.mpr nodup), or_iff_left long]

/-- Who follows whom tells two orders apart exactly if neither is a rotation of the other. -/
theorem follows_iff_isRotated (nodup : members.Nodup) (two : 2 ≤ members.length)
    (leftPerm : left.Perm members) (rightPerm : right.Perm members) :
    (∀ hunter ∈ members, ∀ victim, Follows left hunter victim ↔ Follows right hunter victim) ↔
      left ~r right := by
  rw [← formPerm_eq_iff_isRotated nodup two leftPerm rightPerm]
  have leads : ∀ {order : List α}, order.Perm members → ∀ hunter ∈ members, ∀ victim,
      Follows order hunter victim ↔ order.formPerm hunter = victim := by
    intro order perm hunter member victim
    rw [follows_iff_formPerm (perm.nodup_iff.mpr nodup), perm.mem_iff, and_iff_right member]
  constructor
  · intro same
    ext hunter
    by_cases member : hunter ∈ members
    · rw [← leads leftPerm hunter member, same hunter member, leads rightPerm hunter member]
    · rw [List.formPerm_apply_of_notMem (mt leftPerm.mem_iff.mp member),
        List.formPerm_apply_of_notMem (mt rightPerm.mem_iff.mp member)]
  · intro same hunter member victim
    rw [leads leftPerm hunter member, leads rightPerm hunter member, same]

/-- A ring is made by as many orders as it has members. -/
theorem card_orders_ring (nodup : members.Nodup) (two : 2 ≤ members.length)
    (perm : order.Perm members) :
    ((orders members).filter (· ~r order)).card = members.length := by
  have some' : order ≠ [] := by
    rintro rfl
    rw [← perm.length_eq, List.length_nil] at two
    omega
  have same : (orders members).filter (· ~r order) = order.cyclicPermutations.toFinset := by
    ext other
    rw [Finset.mem_filter, mem_orders, List.mem_toFinset, List.mem_cyclicPermutations_iff]
    exact and_iff_right_of_imp fun rotated => rotated.perm.trans perm
  rw [same, List.toFinset_card_of_nodup (perm.nodup_iff.mpr nodup).cyclicPermutations,
    List.length_cyclicPermutations_of_ne_nil order some', perm.length_eq]

/-- What the members can choose so that they make a ring. -/
def rings (members : List α) : Finset (Fin members.length → α) :=
  (orders members).image fun order index => order.formPerm members[index]

theorem formPerm_eq_of_members (leftPerm : left.Perm members) (rightPerm : right.Perm members)
    (same : ∀ index : Fin members.length,
      left.formPerm members[index] = right.formPerm members[index]) :
    left.formPerm = right.formPerm := by
  ext hunter
  by_cases member : hunter ∈ members
  · rcases List.getElem_of_mem member with ⟨index, inside, rfl⟩
    exact same ⟨index, inside⟩
  · rw [List.formPerm_apply_of_notMem (mt leftPerm.mem_iff.mp member),
      List.formPerm_apply_of_notMem (mt rightPerm.mem_iff.mp member)]

theorem card_rings (nodup : members.Nodup) (two : 2 ≤ members.length) :
    (rings members).card = (members.length - 1).factorial := by
  have even : ∀ choice ∈ rings members,
      ((orders members).filter fun order =>
        (fun index : Fin members.length => order.formPerm members[index]) = choice).card =
      members.length := by
    intro choice member
    rcases Finset.mem_image.mp member with ⟨order, ordered, rfl⟩
    have perm := mem_orders.mp ordered
    refine Eq.trans ?_ (card_orders_ring nodup two perm)
    refine congrArg Finset.card (Finset.filter_congr fun other otherOrdered => ?_)
    have otherPerm := mem_orders.mp otherOrdered
    rw [← formPerm_eq_iff_isRotated nodup two otherPerm perm]
    constructor
    · exact fun same => formPerm_eq_of_members otherPerm perm fun index => congrFun same index
    · intro same
      rw [same]
  have total := card_orders_of_even (fun _ ordered => Finset.mem_image_of_mem _ ordered) even
  rw [card_orders nodup, ← Nat.mul_factorial_pred (by omega), Nat.mul_comm] at total
  exact (Nat.eq_of_mul_eq_mul_right (by omega) total).symm

theorem mem_rings_iff (nodup : members.Nodup) {choice : Fin members.length → α} :
    choice ∈ rings members ↔ IsRing members fun hunter victim =>
      ∃ index : Fin members.length, members[index] = hunter ∧ choice index = victim := by
  rw [rings, Finset.mem_image]
  constructor
  · intro ⟨order, ordered, same⟩
    have perm := mem_orders.mp ordered
    subst same
    refine ⟨order, perm, fun hunter victim => ?_⟩
    rw [follows_iff_formPerm (perm.nodup_iff.mpr nodup), perm.mem_iff]
    constructor
    · rintro ⟨index, rfl, rfl⟩
      exact ⟨List.getElem_mem index.2, rfl⟩
    · rintro ⟨member, rfl⟩
      rcases List.getElem_of_mem member with ⟨index, inside, rfl⟩
      exact ⟨⟨index, inside⟩, rfl, rfl⟩
  · intro ⟨order, perm, ring⟩
    refine ⟨order, mem_orders.mpr perm, funext fun index => ?_⟩
    have follows := (ring members[index] (choice index)).mp ⟨index, rfl, rfl⟩
    exact ((follows_iff_formPerm (perm.nodup_iff.mpr nodup)).mp follows).2

theorem choice_mem_of_rings (nodup : members.Nodup) (two : 2 ≤ members.length)
    {choice : Fin members.length → α} (ring : choice ∈ rings members)
    (index : Fin members.length) :
    choice index ∈ members ∧ choice index ≠ members[index] := by
  rcases Finset.mem_image.mp ring with ⟨order, ordered, rfl⟩
  have perm := mem_orders.mp ordered
  have member := perm.mem_iff.mpr (List.getElem_mem index.2)
  refine ⟨perm.mem_iff.mp (List.formPerm_apply_mem_of_mem member), ?_⟩
  exact (List.formPerm_apply_mem_ne_self_iff order (perm.nodup_iff.mpr nodup) _ member).mpr
    (perm.length_eq.symm ▸ two)

end Rings

end AssassinGame.Draws
