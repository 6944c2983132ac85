import AssassinGame.Foundation.Segments

/-! # Players, their pictures and their phones -/

namespace AssassinGame

abbrev Data := List UInt8

/-- A picture, known by the one thing the program asks of it: `pngData()`,
which is `nil` for a picture without a PNG form. -/
structure UIImage where
  pngData : Option Data
  deriving DecidableEq, Repr

/-- `identifierForVendor`: a UUID, whose text is always one path segment. -/
structure UUID where
  uuidString : String
  plain : Segments.Plain uuidString
  deriving DecidableEq

theorem UUID.uuidString_injective : Function.Injective UUID.uuidString := by
  rintro ⟨left, _⟩ ⟨right, _⟩ equal
  cases equal
  rfl

/-- The values of a `Player` object. Its `target`, a reference to another
object, is kept apart. -/
structure Player where
  name : String
  won_game : Bool
  alive : Bool
  image : UIImage
  deriving DecidableEq, Repr

def Player.init (name : String) (image : UIImage) : Player where
  won_game := false
  alive := true
  name := name
  image := image

end AssassinGame
