/-!
Identifier fragments made from display names. A name keeps its length: what cannot stand in
an identifier becomes an underscore.
-/

namespace SpriteScript.Identifier

/-- ASCII letters, digits, the underscore and every character outside ASCII. -/
def isPart (c : Char) : Bool :=
  c.isAlphanum || c == '_' || 128 ≤ c.toNat

def part (c : Char) : Char :=
  if isPart c then c else '_'

def ofName (name : String) : String :=
  String.ofList (name.toList.map part)

end SpriteScript.Identifier
