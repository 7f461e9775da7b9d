import SpriteScript.Binary64

/-!
The values that variables and list items hold.
-/

namespace SpriteScript

inductive Literal where
  | number (value : Binary64)
  | text (value : String)
  | bool (value : Bool)
deriving DecidableEq

namespace Literal

/-- Equality of values: numbers compare as numbers, so `nan` differs from itself. -/
def same : Literal → Literal → Bool
  | number a, number b => a.same b
  | text a, text b => a == b
  | bool a, bool b => a == b
  | _, _ => false

/-- The value that an undeclared variable has. -/
def zero : Literal := number Binary64.zero

def ofInt (n : Int) : Literal := number (.ofInt n)

end Literal

end SpriteScript
