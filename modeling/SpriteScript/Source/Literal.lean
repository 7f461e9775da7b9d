import SpriteScript.Decimal
import SpriteScript.Literal
import SpriteScript.Source.Piece

/-!
Literals of the Ruby source. Whole numbers below 9·10¹⁵ are written as integers, all other
finite numbers with the fewest digits that read back, never with an exponent; what is not
finite has a named constant.
-/

namespace SpriteScript.Source

/-- The units of 2⁻¹⁰⁷⁴ from which on a whole number is written with its shortest digits. -/
def integerLimit : Nat :=
  9 * Nat.pow 10 15 * Binary64.unitsInOne

def magnitudeChars (rank : Nat) : List Char :=
  let units := Binary64.unitsOf rank
  if units % Binary64.unitsInOne = 0 ∧ units < integerLimit then
    Decimal.digits (units / Binary64.unitsInOne)
  else
    (Decimal.shortest .upward rank).positional

/-- The characters of a number. Zero has no sign. -/
def numberChars : Binary64 → List Char
  | .nan => "Float::NAN".toList
  | .infinite false => "Float::INFINITY".toList
  | .infinite true => "-Float::INFINITY".toList
  | .finite negative rank =>
    if negative && rank.val != 0 then '-' :: magnitudeChars rank else magnitudeChars rank

def number (value : Binary64) : String :=
  String.ofList (numberChars value)

def bool (value : Bool) : String :=
  if value then "true" else "false"

def scalarPieces : Literal → List Piece
  | .number value => [.code (number value)]
  | .text value => [.quoted value]
  | .bool value => [.code (bool value)]

def scalar (value : Literal) : String :=
  text (scalarPieces value)

/-- The pieces of a list, between square brackets and separated by a comma and a blank. -/
def sequencePieces (items : List Literal) : List Piece :=
  .code "[" :: List.intercalate [.code ", "] (items.map scalarPieces) ++ [.code "]"]

def sequence (items : List Literal) : String :=
  text (sequencePieces items)

end SpriteScript.Source
