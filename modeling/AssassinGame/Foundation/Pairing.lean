import Mathlib.Data.Set.Function

/-! # Pairings under single changes

A map that pairs keys with targets, one to one and onto. This file says when it still
does after one key has been mapped, one target added, or one target taken away.
-/

namespace AssassinGame.Pairing

open Set

variable {α : Type u} {β : Type v} {entry : α → β} {keys : Set α} {targets : Set β}
  {target : β}

theorem bijOn_add_iff (pairs : BijOn entry keys targets) (target : β) :
    BijOn entry keys (insert target targets) ↔ target ∈ targets := by
  constructor
  · intro more
    rcases more.surjOn (mem_insert target targets) with ⟨key, inside, rfl⟩
    exact pairs.mapsTo inside
  · intro old
    rwa [insert_eq_of_mem old]

theorem bijOn_remove_iff (pairs : BijOn entry keys targets) (target : β) :
    BijOn entry keys (targets \ {target}) ↔ target ∉ targets := by
  constructor
  · intro fewer old
    rcases pairs.surjOn old with ⟨key, inside, rfl⟩
    exact (fewer.mapsTo inside).2 rfl
  · intro missing
    rwa [sdiff_singleton_eq_self missing]

/-- Mapping a key to a target and adding the target keeps the pairing if the key is paired
with the target already, or both are new. -/
theorem bijOn_update_iff [DecidableEq α] (pairs : BijOn entry keys targets) (key : α)
    (target : β) :
    BijOn (Function.update entry key target) (insert key keys) (insert target targets) ↔
      (key ∈ keys ∧ entry key = target) ∨ (key ∉ keys ∧ target ∉ targets) := by
  have own : Function.update entry key target key = target := Function.update_self ..
  have others : ∀ other, other ≠ key → Function.update entry key target other = entry other :=
    fun other different => Function.update_of_ne different ..
  constructor
  · intro updated
    by_cases known : key ∈ keys
    · refine .inl ⟨known, ?_⟩
      -- the former target of the key must still have a key
      rcases updated.surjOn (mem_insert_of_mem target (pairs.mapsTo known)) with
        ⟨holder, inside, holds⟩
      by_cases same : holder = key
      · subst same
        exact (own.symm.trans holds).symm
      · rw [others holder same] at holds
        exact absurd (pairs.injOn (inside.resolve_left same) known holds) same
    · refine .inr ⟨known, fun old => ?_⟩
      rcases pairs.surjOn old with ⟨holder, inside, holds⟩
      have different : holder ≠ key := fun same => known (same ▸ inside)
      have twice := updated.injOn (mem_insert_of_mem key inside) (mem_insert key keys)
      exact different (twice ((others holder different).trans (holds.trans own.symm)))
  · rintro (⟨known, rfl⟩ | ⟨fresh, missing⟩)
    · rwa [Function.update_eq_self, insert_eq_of_mem known,
        insert_eq_of_mem (pairs.mapsTo known)]
    · have same : EqOn entry (Function.update entry key target) keys := fun other inside =>
        (others other fun equal => fresh (equal ▸ inside)).symm
      have added := (pairs.congr same).insert (a := key) (by rwa [own])
      rwa [own] at added

theorem not_bijOn_update [DecidableEq α] (missing : target ∉ targets) (key : α) :
    ¬BijOn (Function.update entry key target) (insert key keys) targets := by
  intro updated
  have landed := updated.mapsTo (mem_insert key keys)
  rw [Function.update_self] at landed
  exact missing landed

end AssassinGame.Pairing
