import Mathlib.Data.List.AList

/-! # What holds of every entry of a table

A property of every entry is kept when an entry that has it is set, and when an entry is
taken out.
-/

namespace AssassinGame.Entries

variable {α : Type u} {β : Type v} [DecidableEq α] {entries : AList fun _ : α => β}
  {property : α → β → Prop}

theorem forall_insert {key : α} {value : β} (here : property key value)
    (others : ∀ other found, entries.lookup other = some found → property other found) :
    ∀ other found, (entries.insert key value).lookup other = some found →
      property other found := by
  intro other found there
  by_cases same : other = key
  · subst same
    rw [AList.lookup_insert, Option.some.injEq] at there
    exact there ▸ here
  · rw [AList.lookup_insert_ne same] at there
    exact others other found there

theorem forall_erase
    (all : ∀ other found, entries.lookup other = some found → property other found) (key : α) :
    ∀ other found, (entries.erase key).lookup other = some found → property other found := by
  intro other found there
  by_cases same : other = key
  · subst same
    rw [AList.lookup_erase] at there
    cases there
  · rw [AList.lookup_erase_ne same] at there
    exact all other found there

end AssassinGame.Entries
