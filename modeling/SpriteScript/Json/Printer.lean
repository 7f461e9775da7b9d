import SpriteScript.Decimal
import SpriteScript.Json.Value

/-!
Compact JSON text: no blanks, fields in order, whole numbers plain. A real number has the fewest
digits that read back; it is positional while its first digit stands for 10⁻⁵ to 10¹⁵, and then
always has a fraction.
-/

namespace SpriteScript.Json

def escapeChar (c : Char) : List Char :=
  if c = '"' then ['\\', '"']
  else if c = '\\' then ['\\', '\\']
  else if c = '\x08' then ['\\', 'b']
  else if c = '\t' then ['\\', 't']
  else if c = '\n' then ['\\', 'n']
  else if c = '\x0c' then ['\\', 'f']
  else if c = '\r' then ['\\', 'r']
  else if c.toNat < 0x20 then
    ['\\', 'u', '0', '0', Nat.digitChar (c.toNat / 16), Nat.digitChar (c.toNat % 16)]
  else [c]

def printString (text : String) : List Char :=
  '"' :: text.toList.flatMap escapeChar ++ ['"']

def printMagnitude (rank : Nat) : List Char :=
  let decimal := Decimal.shortest .toEven rank
  let leading := decimal.leadingExponent
  if -5 ≤ leading ∧ leading ≤ 15 then
    if decimal.exponent < 0 then decimal.positional else decimal.positional ++ ['.', '0']
  else decimal.scientific

/-- The text of a real number. What is not finite has no JSON number and is written `null`. -/
def printReal : Binary64 → List Char
  | .finite true rank => '-' :: printMagnitude rank
  | .finite false rank => printMagnitude rank
  | _ => "null".toList

def printNumber : Number → List Char
  | .unsigned value => Decimal.digits value.toNat
  | .negative value =>
    if value.toInt < 0 then '-' :: Decimal.digits value.toInt.natAbs
    else Decimal.digits value.toInt.natAbs
  | .real value => printReal value

mutual

def print : Value → List Char
  | .null => "null".toList
  | .bool true => "true".toList
  | .bool false => "false".toList
  | .number value => printNumber value
  | .string value => printString value
  | .array items => '[' :: List.intercalate [','] (printItems items) ++ [']']
  | .object fields => '{' :: List.intercalate [','] (printFields fields) ++ ['}']

def printItems : List Value → List (List Char)
  | [] => []
  | item :: rest => print item :: printItems rest

def printFields : List (String × Value) → List (List Char)
  | [] => []
  | (key, value) :: rest => (printString key ++ ':' :: print value) :: printFields rest

end

def Value.compact (value : Value) : String :=
  String.ofList (print value)

end SpriteScript.Json
