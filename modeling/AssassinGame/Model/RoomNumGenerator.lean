import Mathlib.Data.List.Range

/-! # Shuffles and room numbers -/

namespace AssassinGame

/-- An outcome of `shuffle()` or `shuffled()`: any rearrangement of the list it
is given. -/
structure Shuffle (α : Type) where
  order : List α → List α
  perm : ∀ values, (order values).Perm values

namespace Shuffle

instance : CoeFun (Shuffle α) fun _ => List α → List α := ⟨order⟩

def keep : Shuffle α where
  order := id
  perm values := .refl values

/-- The outcome that turns `values` into `wanted` and leaves every other list as
it is. -/
def toward [DecidableEq α] (values wanted : List α) (perm : wanted.Perm values) :
    Shuffle α where
  order given := if given = values then wanted else given
  perm given := by
    split
    · rename_i equal
      exact equal ▸ perm
    · exact .refl given

@[simp] theorem toward_apply [DecidableEq α] (values wanted : List α)
    (perm : wanted.Perm values) : toward values wanted perm values = wanted := by
  simp [toward]

theorem mem_iff (shuffle : Shuffle α) {values : List α} {value : α} :
    value ∈ shuffle values ↔ value ∈ values :=
  (shuffle.perm values).mem_iff

theorem exists_last [DecidableEq α] {values : List α} {value : α}
    (member : value ∈ values) :
    ∃ shuffle : Shuffle α, ∃ front, shuffle values = front ++ [value] := by
  have perm : (values.erase value ++ [value]).Perm values :=
    (List.perm_append_singleton value _).trans (List.perm_cons_erase member).symm
  exact ⟨toward values _ perm, values.erase value, toward_apply _ _ perm⟩

end Shuffle

/-- `roomNumGenerator.generateRoomNumber()`: the first four of the ten shuffled
digits, read as a number. -/
def generateRoomNumber (shuffled : Shuffle Nat) : Int :=
  let digits := List.range 10
  let shuffledDigits := shuffled digits
  let fourDigits := shuffledDigits.take 4
  fourDigits.foldl (fun (value : Int) (digit : Nat) => value * 10 + digit) 0

example : generateRoomNumber Shuffle.keep = 123 := by decide

theorem generateRoomNumber_bounds (shuffled : Shuffle Nat) :
    0 ≤ generateRoomNumber shuffled ∧ generateRoomNumber shuffled ≤ 9999 := by
  have small : ∀ digit ∈ (shuffled (List.range 10)).take 4, digit < 10 := by
    intro digit member
    have inside := (shuffled.mem_iff).mp (List.mem_of_mem_take member)
    exact List.mem_range.mp inside
  have short : ((shuffled (List.range 10)).take 4).length = 4 := by
    simp [(shuffled.perm (List.range 10)).length_eq]
  unfold generateRoomNumber
  match shape : (shuffled (List.range 10)).take 4, short with
  | [first, second, third, fourth], _ =>
      simp only [shape, List.mem_cons, List.not_mem_nil, or_false, forall_eq_or_imp,
        forall_eq] at small
      simp only [shape, List.foldl_cons, List.foldl_nil]
      omega

end AssassinGame
