import SpriteScript.Keyed
import SpriteScript.Binary64

/-!
JSON values. Numbers without a fraction or an exponent stay whole where 64 bits hold them;
objects keep their keys in the order in which they first came.
-/

namespace SpriteScript.Json

/-- A number as its text gives it. -/
inductive Number where
  | unsigned (value : UInt64)
  | negative (value : Int64)
  | real (value : Binary64)
deriving DecidableEq

namespace Number

def toBinary64 : Number → Binary64
  | unsigned value => .ofNat value.toNat
  | negative value => .ofInt value.toInt
  | real value => value

/-- The value if it is whole and fits 64 bits without a sign. -/
def unsigned? : Number → Option UInt64
  | unsigned value => some value
  | _ => none

/-- The value if it is whole and fits 64 bits with a sign. -/
def signed? : Number → Option Int
  | unsigned value => if value.toNat < 0x8000000000000000 then some value.toNat else none
  | negative value => some value.toInt
  | real _ => none

end Number

inductive Value where
  | null
  | bool (value : Bool)
  | number (value : Number)
  | string (value : String)
  | array (items : List Value)
  | object (fields : List (String × Value))

namespace Value

def field? (key : String) : Value → Option Value
  | object fields => Keyed.find? key fields
  | _ => none

def bool? : Value → Option Bool
  | bool value => some value
  | _ => none

def number? : Value → Option Number
  | number value => some value
  | _ => none

def string? : Value → Option String
  | string value => some value
  | _ => none

def array? : Value → Option (List Value)
  | array items => some items
  | _ => none

def object? : Value → Option (Keyed String Value)
  | object fields => some fields
  | _ => none

/-- Whether a value counts as true: not `false`, zero, the empty text or `null`. -/
def truthy : Value → Bool
  | null => false
  | bool value => value
  | number value => !value.toBinary64.same .zero
  | string value => value != ""
  | array _ => true
  | object _ => true

end Value

end SpriteScript.Json
