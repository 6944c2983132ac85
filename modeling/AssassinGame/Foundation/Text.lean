import AssassinGame.Foundation.Segments
import Mathlib.Data.List.Nodup

/-! # The comparison of texts

The operators `==` and `!=` compare the Unicode canonical representations of two texts, not
their characters: a letter with an accent is the same text as the letter followed by a combining
accent. Keys, document identifiers and paths, in contrast, are compared character by character.
-/

namespace AssassinGame

/-- The Unicode canonical representation. No character but U+002F itself is decomposed into
U+002F. -/
class Canonical where
  representation : String → String
  slash (text : String) : '/' ∈ (representation text).toList ↔ '/' ∈ text.toList

/-- `left == right`. -/
def SameText [Canonical] (left right : String) : Prop :=
  Canonical.representation left = Canonical.representation right

def Distinguished [Canonical] (texts : List String) : Prop :=
  texts.Pairwise fun left right => ¬SameText left right

namespace Ascii

/-- A text of ASCII characters is its own canonical representation. -/
scoped instance canonical : Canonical where
  representation text := text
  slash _ := .rfl

end Ascii

section Comparison

variable [Canonical] {left middle right : String}

instance (left right : String) : Decidable (SameText left right) :=
  inferInstanceAs (Decidable (_ = _))

instance (texts : List String) : Decidable (Distinguished texts) :=
  inferInstanceAs (Decidable (texts.Pairwise _))

@[simp] theorem SameText.refl (text : String) : SameText text text := rfl

theorem SameText.symm (same : SameText left right) : SameText right left := Eq.symm same

theorem SameText.trans (same : SameText left middle) (next : SameText middle right) :
    SameText left right := Eq.trans same next

theorem ne_of_not_sameText (other : ¬SameText left right) : left ≠ right :=
  fun equal => other (equal ▸ SameText.refl left)

theorem not_sameText_of_slash (separated : '/' ∈ left.toList) (free : '/' ∉ right.toList) :
    ¬SameText left right := by
  intro same
  have inside := (Canonical.slash left).mpr separated
  rw [show Canonical.representation left = Canonical.representation right from same] at inside
  exact free ((Canonical.slash right).mp inside)

theorem distinguished_iff_nodup {texts : List String} :
    Distinguished texts ↔ (texts.map Canonical.representation).Nodup := by
  rw [List.Nodup, List.pairwise_map]
  rfl

theorem Distinguished.eq {texts : List String} (distinguished : Distinguished texts)
    (leftMember : left ∈ texts) (rightMember : right ∈ texts) (same : SameText left right) :
    left = right :=
  List.inj_on_of_nodup_map (distinguished_iff_nodup.mp distinguished) leftMember rightMember same

end Comparison

end AssassinGame
