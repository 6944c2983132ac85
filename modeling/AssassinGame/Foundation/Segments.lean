import Mathlib.Data.List.Infix
import Std.Data.String.ToInt

/-! # Texts as path segments, and decimal texts

Texts are cut at `/`, empty pieces being dropped. A text that is one segment by
itself is `Plain`; decimal numerals are. The second half reads numerals back.
-/

namespace AssassinGame.Segments

/-- The non-empty pieces of a text between the separators. -/
def split (text : String) : List String :=
  ((text.toList.splitOn '/').map String.ofList).filter (· ≠ "")

def hasEmptyMiddle (text : String) : Bool :=
  decide (['/', '/'] <:+: text.toList)

/-- A text that names one segment, namely itself. -/
def Plain (text : String) : Prop := text ≠ "" ∧ '/' ∉ text.toList

instance (text : String) : Decidable (Plain text) :=
  inferInstanceAs (Decidable (_ ∧ _))

theorem Plain.split {text : String} (plain : Plain text) : split text = [text] := by
  have single : text.toList.splitOn '/' = [text.toList] :=
    List.splitOn_eq_singleton plain.2
  simp [Segments.split, single, plain.1]

theorem slash_not_mem_of_mem_splitOn {characters piece : List Char}
    (member : piece ∈ characters.splitOn '/') : '/' ∉ piece := by
  induction characters generalizing piece with
  | nil =>
      rw [List.splitOn_nil, List.mem_singleton] at member
      simp [member]
  | cons character characters induction =>
      rw [List.splitOn_cons_eq_if_modifyHead] at member
      split at member
      · rcases List.mem_cons.mp member with rfl | later
        · simp
        · exact induction later
      · rename_i other
        rcases List.exists_cons_of_ne_nil (List.splitOn_ne_nil '/' characters) with
          ⟨head, tail, shape⟩
        rw [shape, List.modifyHead_cons] at member
        rcases List.mem_cons.mp member with rfl | later
        · have headFree : '/' ∉ head := induction (shape ▸ List.mem_cons_self)
          have different : character ≠ '/' := by simpa using other
          simp [headFree, different.symm]
        · exact induction (shape ▸ List.mem_cons_of_mem _ later)

theorem split_eq_singleton_iff {text : String} : split text = [text] ↔ Plain text := by
  constructor
  · intro single
    have member : text ∈ split text := by simp [single]
    rcases List.mem_filter.mp member with ⟨piece, nonempty⟩
    rcases List.mem_map.mp piece with ⟨characters, inside, rfl⟩
    refine ⟨of_decide_eq_true nonempty, ?_⟩
    rw [String.toList_ofList]
    exact slash_not_mem_of_mem_splitOn inside
  · exact Plain.split

theorem split_append_slash (front back : String) :
    split (front ++ "/" ++ back) = split front ++ split back := by
  have pieces : (front ++ "/" ++ back).toList = front.toList ++ '/' :: back.toList := by
    simp [String.toList_append]
  rw [split, pieces, List.splitOn_append_cons_self, List.map_append, List.filter_append]
  rfl

theorem Plain.no_empty_middle {text : String} (plain : Plain text) :
    hasEmptyMiddle text = false := by
  rw [Bool.eq_false_iff]
  intro found
  exact plain.2 ((of_decide_eq_true found).subset (by simp))

example : split "/a//b/" = ["a", "b"] := by decide

/-! ## Decimal numerals -/

theorem slash_not_mem_toDigits (value : Nat) : '/' ∉ Nat.toDigits 10 value := by
  intro member
  have digit := Nat.isDigit_of_mem_toDigits (by omega) (by omega) member
  exact absurd digit (by decide)

def decimal (value : Int) : String := toString value

theorem toList_decimal (value : Int) :
    (decimal value).toList =
      if value < 0 then '-' :: Nat.toDigits 10 value.natAbs
      else Nat.toDigits 10 value.natAbs := by
  cases value with
  | ofNat magnitude => simp [decimal, Int.toString_eq_repr, Int.repr, Nat.toList_repr]
  | negSucc magnitude => simp [decimal, Int.toString_eq_repr, Int.repr, Nat.toList_repr]

theorem plain_decimal (value : Int) : Plain (decimal value) := by
  constructor
  · intro empty
    have characters := toList_decimal value
    rw [empty] at characters
    split at characters
    · simp at characters
    · exact Nat.toDigits_ne_nil characters.symm
  · rw [toList_decimal]
    split
    · simp [slash_not_mem_toDigits]
    · exact slash_not_mem_toDigits _

theorem decimal_injective : Function.Injective decimal := by
  intro left right equal
  exact Int.repr_inj.mp (by simpa [decimal, Int.toString_eq_repr] using equal)

theorem isDigit_of_mem_decimal {value : Int} {character : Char}
    (member : character ∈ (decimal value).toList) :
    character = '-' ∨ character.isDigit = true := by
  rw [toList_decimal] at member
  split at member
  · rcases List.mem_cons.mp member with sign | digit
    · exact .inl sign
    · exact .inr (Nat.isDigit_of_mem_toDigits (by omega) (by omega) digit)
  · exact .inr (Nat.isDigit_of_mem_toDigits (by omega) (by omega) member)

theorem decimal_ne_append {value : Int} {front suffix : String} {character : Char}
    (member : character ∈ suffix.toList) (notSign : character ≠ '-')
    (notDigit : character.isDigit = false) : decimal value ≠ front ++ suffix := by
  intro equal
  have inside : character ∈ (decimal value).toList := by
    rw [equal, String.toList_append]
    exact List.mem_append_right _ member
  rcases isDigit_of_mem_decimal inside with sign | digit
  · exact notSign sign
  · rw [notDigit] at digit
    cases digit

theorem append_right_injective (suffix : String) :
    Function.Injective fun text : String => text ++ suffix := by
  intro left right equal
  have characters := congrArg String.toList equal
  simp only [String.toList_append] at characters
  exact String.toList_inj.mp (List.append_cancel_right characters)

theorem Plain.append {text suffix : String} (plain : Plain text)
    (free : '/' ∉ suffix.toList) : Plain (text ++ suffix) := by
  constructor
  · intro empty
    have characters := congrArg String.toList empty
    rw [String.toList_append] at characters
    exact plain.1 (String.toList_inj.mp (List.append_eq_nil_iff.mp characters).1)
  · simp [String.toList_append, plain.2, free]

/-! ## Reading numerals back -/

def unsigned : List Char → List Char
  | '-' :: digits => digits
  | '+' :: digits => digits
  | digits => digits

/-- Read an optionally signed decimal numeral whose value fits the interval from
`low` to `high`. -/
def parse (low high : Int) (text : String) : Option Int :=
  let digits := unsigned text.toList
  let magnitude : Int := Nat.ofDigitChars 10 digits 0
  let value := if text.toList.head? = some '-' then -magnitude else magnitude
  if digits ≠ [] ∧ digits.all Char.isDigit ∧ low ≤ value ∧ value ≤ high then some value
  else none

theorem unsigned_toDigits (magnitude : Nat) :
    unsigned (Nat.toDigits 10 magnitude) = Nat.toDigits 10 magnitude := by
  have digit : ∀ character ∈ Nat.toDigits 10 magnitude, character.isDigit = true :=
    fun _ member => Nat.isDigit_of_mem_toDigits (by omega) (by omega) member
  unfold unsigned
  split
  · rename_i shape
    exact absurd (digit '-' (by simp [shape])) (by decide)
  · rename_i shape
    exact absurd (digit '+' (by simp [shape])) (by decide)
  · rfl

theorem head_toDigits_ne_sign (magnitude : Nat) :
    (Nat.toDigits 10 magnitude).head? ≠ some '-' := by
  intro equal
  have digit := Nat.isDigit_of_mem_toDigits (by omega) (by omega)
    (List.mem_of_mem_head? equal)
  exact absurd digit (by decide)

theorem parse_decimal {low high value : Int} (above : low ≤ value) (below : value ≤ high) :
    parse low high (decimal value) = some value := by
  have digits : (Nat.toDigits 10 value.natAbs).all Char.isDigit = true :=
    List.all_eq_true.mpr fun _ member =>
      Nat.isDigit_of_mem_toDigits (by omega) (by omega) member
  by_cases negative : value < 0
  · have characters : (decimal value).toList = '-' :: Nat.toDigits 10 value.natAbs := by
      rw [toList_decimal, if_pos negative]
    have back : (-(value.natAbs : Int)) = value := by omega
    simp only [parse, characters, unsigned, List.head?_cons,
      Nat.ofDigitChars_ten_toDigits, digits, back, if_true]
    simp [Nat.toDigits_ne_nil, above, below]
  · have characters : (decimal value).toList = Nat.toDigits 10 value.natAbs := by
      rw [toList_decimal, if_neg negative]
    have back : (value.natAbs : Int) = value := by omega
    simp only [parse, characters, unsigned_toDigits, head_toDigits_ne_sign,
      Nat.ofDigitChars_ten_toDigits, digits, back, if_false]
    simp [Nat.toDigits_ne_nil, above, below]

theorem eq_of_parse_decimal {low high value read : Int}
    (parsed : parse low high (decimal value) = some read) : read = value := by
  have wider := @parse_decimal (min low value) (max high value) value (Int.min_le_right _ _)
    (Int.le_max_right _ _)
  simp only [parse, Option.ite_none_right_eq_some, Option.some.injEq] at parsed wider
  exact parsed.2.symm.trans wider.2

theorem mem_unsigned {character : Char} {characters : List Char}
    (member : character ∈ characters) :
    character = '-' ∨ character = '+' ∨ character ∈ unsigned characters := by
  unfold unsigned
  split
  · rcases List.mem_cons.mp member with sign | digit
    · exact .inl sign
    · exact .inr (.inr digit)
  · rcases List.mem_cons.mp member with sign | digit
    · exact .inr (.inl sign)
    · exact .inr (.inr digit)
  · exact .inr (.inr member)

theorem isDigit_of_mem_parsed {low high value : Int} {text : String}
    (parsed : parse low high text = some value) {character : Char}
    (member : character ∈ text.toList) :
    character = '-' ∨ character = '+' ∨ character.isDigit = true := by
  simp only [parse, Option.ite_none_right_eq_some] at parsed
  rcases parsed with ⟨⟨_, digits, _⟩, _⟩
  rcases mem_unsigned member with sign | sign | digit
  · exact .inl sign
  · exact .inr (.inl sign)
  · exact .inr (.inr (List.all_eq_true.mp digits character digit))

theorem plain_of_parse {low high value : Int} {text : String}
    (parsed : parse low high text = some value) : Plain text := by
  constructor
  · intro empty
    subst empty
    simp only [parse, Option.ite_none_right_eq_some] at parsed
    exact parsed.1.1 rfl
  · intro slash
    rcases isDigit_of_mem_parsed parsed slash with sign | sign | digit
    · cases sign
    · cases sign
    · exact absurd digit (by decide)

example : parse (-100) 100 "+07" = some 7 := by decide

end AssassinGame.Segments
