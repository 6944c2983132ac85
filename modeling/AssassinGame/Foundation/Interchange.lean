import AssassinGame.Foundation.Transition
import Mathlib.Data.List.Sort

/-! # Runs whose events change places

Two events that are independent of each other can be performed in either order. A run in
which only independent events are out of order can therefore be sorted.
-/

namespace AssassinGame.Transition

variable {State : Type u} {Event : Type v}

/-- States that are `alike` go on alike, and `independent` events may be performed the other
way round. -/
structure Interchange (step : State → Event → Option State) (alike : State → State → Prop)
    (independent : Event → Event → Prop) : Prop where
  refl : ∀ state, alike state state
  trans : ∀ {first second third : State}, alike first second → alike second third →
    alike first third
  matched : ∀ {left right next : State} {event : Event}, alike left right →
    step left event = some next → ∃ other, step right event = some other ∧ alike next other
  swap : ∀ {state middle final : State} {first second : Event}, independent first second →
    step state first = some middle → step middle second = some final →
    ∃ other last, step state second = some other ∧ step other first = some last ∧
      alike final last

namespace Interchange

variable {step : State → Event → Option State} {alike : State → State → Prop}
  {independent : Event → Event → Prop}

theorem run_matched (interchange : Interchange step alike independent)
    {left right final : State} {events : List Event} (start : alike left right)
    (performed : run step left events = some final) :
    ∃ last, run step right events = some last ∧ alike final last := by
  induction events generalizing left right with
  | nil => exact ⟨right, rfl, Option.some.inj performed ▸ start⟩
  | cons event events induction =>
      rcases run_cons_eq_some.mp performed with ⟨next, stepped, rest⟩
      rcases interchange.matched start stepped with ⟨other, followed, agreed⟩
      rcases induction agreed rest with ⟨last, finished, close⟩
      exact ⟨last, run_cons_eq_some.mpr ⟨other, followed, finished⟩, close⟩

/-- Events are sorted by the numbers they are given; equal numbers keep their order. -/
def sorted (rank : Event → Nat) (events : List Event) : List Event :=
  events.insertionSort fun left right => rank left ≤ rank right

theorem sorted_perm (rank : Event → Nat) (events : List Event) :
    (sorted rank events).Perm events := List.perm_insertionSort _ events

theorem pairwise_sorted (rank : Event → Nat) (events : List Event) :
    (sorted rank events).Pairwise fun left right => rank left ≤ rank right := by
  have total : Std.Total fun left right : Event => rank left ≤ rank right :=
    ⟨fun left right => Nat.le_total _ _⟩
  have transitive : IsTrans Event fun left right => rank left ≤ rank right :=
    ⟨fun _ _ _ => Nat.le_trans⟩
  exact List.pairwise_insertionSort _ events

theorem run_orderedInsert (interchange : Interchange step alike independent)
    (rank : Event → Nat) {state final : State} {event : Event} {events : List Event}
    (apart : ∀ later ∈ events, rank later < rank event → independent event later)
    (performed : run step state (event :: events) = some final) :
    ∃ last, run step state
        (events.orderedInsert (fun left right => rank left ≤ rank right) event) =
        some last ∧ alike final last := by
  induction events generalizing state final with
  | nil => exact ⟨final, performed, interchange.refl final⟩
  | cons later events induction =>
      rw [List.orderedInsert_cons]
      split
      · exact ⟨final, performed, interchange.refl final⟩
      · rename_i out
        rcases run_cons_eq_some.mp performed with ⟨middle, stepped, rest⟩
        rcases run_cons_eq_some.mp rest with ⟨next, followed, rest⟩
        have free := apart later List.mem_cons_self (Nat.lt_of_not_le out)
        rcases interchange.swap free stepped followed with ⟨other, last, first, second, same⟩
        rcases interchange.run_matched same rest with ⟨reached, finished, close⟩
        rcases induction (fun later member => apart later (List.mem_cons_of_mem _ member))
          (run_cons_eq_some.mpr ⟨last, second, finished⟩) with ⟨ended, moved, closer⟩
        exact ⟨ended, run_cons_eq_some.mpr ⟨other, first, moved⟩,
          interchange.trans close closer⟩

/-- A run can be sorted if whatever is out of order is independent. -/
theorem run_sorted (interchange : Interchange step alike independent) (rank : Event → Nat)
    {state final : State} {events : List Event}
    (apart : events.Pairwise fun earlier later =>
      rank later < rank earlier → independent earlier later)
    (performed : run step state events = some final) :
    ∃ last, run step state (sorted rank events) = some last ∧ alike final last := by
  induction events generalizing state with
  | nil => exact ⟨final, performed, interchange.refl final⟩
  | cons event events induction =>
      rcases List.pairwise_cons.mp apart with ⟨own, others⟩
      rcases run_cons_eq_some.mp performed with ⟨next, stepped, rest⟩
      rcases induction others rest with ⟨reached, finished, close⟩
      have inserted := interchange.run_orderedInsert rank
        (fun later member => own later ((sorted_perm rank events).mem_iff.mp member))
        (run_cons_eq_some.mpr ⟨next, stepped, finished⟩)
      rcases inserted with ⟨last, moved, closer⟩
      exact ⟨last, moved, interchange.trans close closer⟩

end Interchange

end AssassinGame.Transition
