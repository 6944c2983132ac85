import Mathlib.Data.List.Basic

/-! # Values shown in order

A growing list of values is shown to a reader in order, some of them skipped. No value is
shown twice.
-/

namespace AssassinGame

namespace Feed

variable {α : Type*} {values : List α} {value : α} {seen place : Nat}

/-- The value at a place, if a reader who has been shown the values before `seen` may be
shown it. -/
def next? (values : List α) (seen place : Nat) : Option α :=
  if seen ≤ place then values[place]? else none

theorem next?_eq_some :
    next? values seen place = some value ↔ seen ≤ place ∧ values[place]? = some value := by
  rw [next?, Option.ite_none_right_eq_some]

/-- A reader meets the values it counts no more often than they are taken. -/
theorem countP_take_next? (shown : next? values seen place = some value) (counts : α → Bool) :
    (values.take seen).countP counts + (if counts value then 1 else 0) ≤
      (values.take (place + 1)).countP counts := by
  rcases next?_eq_some.mp shown with ⟨later, there⟩
  have earlier : (values.take seen).countP counts ≤ (values.take place).countP counts :=
    (List.take_sublist_take_left later).countP_le
  rw [List.take_add_one, there, List.countP_append, Option.toList_some, List.countP_singleton]
  omega

theorem exists_places {counts : α → Bool} (twice : 2 ≤ values.countP counts) :
    ∃ first second : Nat, first < second ∧ (∃ value, values[first]? = some value ∧ counts value) ∧
      ∃ value, values[second]? = some value ∧ counts value := by
  induction values with
  | nil => simp at twice
  | cons head tail induction =>
      cases counted : counts head with
      | true =>
          rw [List.countP_cons_of_pos counted] at twice
          have more : 0 < tail.countP counts := by omega
          rcases List.countP_pos_iff.mp more with ⟨value, member, holds⟩
          rcases List.getElem?_of_mem member with ⟨place, there⟩
          exact ⟨0, place + 1, by omega, ⟨head, rfl, counted⟩, value, there, holds⟩
      | false =>
          rw [List.countP_cons_of_neg (by simp [counted])] at twice
          rcases induction twice with ⟨first, second, before, found, other⟩
          exact ⟨first + 1, second + 1, by omega, found, other⟩

end Feed

end AssassinGame
