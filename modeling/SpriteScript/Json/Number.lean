import SpriteScript.Json.Fault
import SpriteScript.Json.Value

/-!
Reading JSON numbers. The digits form a significand of at most 64 bits; digits that no longer
fit only move the decimal point. A number with a fraction, an exponent or such digits is the
significand rounded to binary64 and then multiplied or divided by a rounded power of ten, so a
decimal text is not always read as the nearest number.
-/

namespace SpriteScript.Json

def digitValue (c : Char) : Nat :=
  c.toNat - '0'.toNat

/-- Takes digits into a significand while it fits 64 bits. Gives the significand, the number of
digits taken and the rest. -/
def takeDigits (significand count : Nat) : List Char → Nat × Nat × List Char
  | [] => (significand, count, [])
  | c :: rest =>
    if c.isDigit && significand * 10 + digitValue c < 0x10000000000000000 then
      takeDigits (significand * 10 + digitValue c) (count + 1) rest
    else (significand, count, c :: rest)

def powerOfTen? (n : Nat) : Option Rank :=
  Binary64.rank? (Nat.pow 10 n) 1

/-- Divides by `10 ^ n`, by 10³⁰⁸ as often as the first argument says before the last step. -/
def divideByPower : Nat → Rank → Nat → Option Rank
  | 0, rank, n => do
    let power ← powerOfTen? n
    Binary64.divRank? rank power
  | steps + 1, rank, n =>
    if rank.val = 0 then some rank
    else do
      let power ← powerOfTen? 308
      let smaller ← Binary64.divRank? rank power
      divideByPower steps smaller (n - 308)

def scaleByTen (significand : Nat) (exponent : Int) : Option Rank := do
  let rank ← Binary64.rank? significand 1
  match exponent with
  | .ofNat n =>
    if rank.val = 0 then some rank
    else if 308 < n then none
    else do
      let power ← powerOfTen? n
      Binary64.mulRank? rank power
  | .negSucc n => divideByPower (n / 308) rank (n + 1)

def real (negative : Bool) (significand : Nat) (exponent : Int) (rest : List Char) :
    Except Fault (Number × List Char) :=
  (scaleByTen significand exponent).elim (.error (.before .numberOutOfRange rest)) fun rank =>
    .ok (.real (.finite negative rank), rest)

/-- Takes the digits of an exponent while it fits 31 bits. Nothing is left of the digits unless
one did not fit; then the rest starts behind that digit. -/
def takeExponent (value : Nat) : List Char → Except (List Char) (Nat × List Char)
  | [] => .ok (value, [])
  | c :: rest =>
    if c.isDigit then
      if value * 10 + digitValue c < 0x80000000 then takeExponent (value * 10 + digitValue c) rest
      else .error rest
    else .ok (value, c :: rest)

def exponentPart (negative : Bool) (significand : Nat) (shift : Int) (text : List Char) :
    Except Fault (Number × List Char) :=
  let (down, digits) := match text with
    | '+' :: rest => (false, rest)
    | '-' :: rest => (true, rest)
    | rest => (false, rest)
  match digits with
  | [] => .error (.before .endInValue [])
  | c :: rest =>
    if !c.isDigit then .error (.past .invalidNumber (c :: rest))
    else
      match takeExponent (digitValue c) rest with
      | .ok (value, rest) =>
        real negative significand (if down then shift - value else shift + value) rest
      | .error rest =>
        if significand != 0 && !down then .error (.before .numberOutOfRange rest)
        else real negative 0 0 (rest.dropWhile Char.isDigit)

def finishReal (negative : Bool) (significand : Nat) (shift : Int) :
    List Char → Except Fault (Number × List Char)
  | 'e' :: rest => exponentPart negative significand shift rest
  | 'E' :: rest => exponentPart negative significand shift rest
  | rest => real negative significand shift rest

def fractionPart (negative : Bool) (significand : Nat) (shift : Int) (text : List Char) :
    Except Fault (Number × List Char) :=
  match text with
  | [] => .error (.past .endInValue [])
  | c :: _ =>
    if !c.isDigit then .error (.past .invalidNumber text)
    else
      let (significand, count, rest) := takeDigits significand 0 text
      finishReal negative significand (shift - count) (rest.dropWhile Char.isDigit)

/-- A number without fraction and exponent. Minus zero and what 64 bits do not hold are real. -/
def whole (negative : Bool) (significand : Nat) (rest : List Char) :
    Except Fault (Number × List Char) :=
  if !negative then .ok (.unsigned (UInt64.ofNat significand), rest)
  else if significand = 0 || 0x8000000000000000 < significand then real true significand 0 rest
  else .ok (.negative (Int64.ofInt (-significand)), rest)

/-- Reads what follows the digits before the point; `dropped` of them did not fit. -/
def afterDigits (negative : Bool) (significand dropped : Nat) :
    List Char → Except Fault (Number × List Char)
  | '.' :: rest => fractionPart negative significand dropped rest
  | 'e' :: rest => exponentPart negative significand dropped rest
  | 'E' :: rest => exponentPart negative significand dropped rest
  | rest =>
    if dropped = 0 then whole negative significand rest
    else real negative significand dropped rest

def number (negative : Bool) : List Char → Except Fault (Number × List Char)
  | [] => .error (.before .endInValue [])
  | c :: rest =>
    if c = '0' then
      match rest with
      | d :: _ =>
        if d.isDigit then .error (.past .invalidNumber rest) else afterDigits negative 0 0 rest
      | [] => afterDigits negative 0 0 rest
    else if c.isDigit then
      let (significand, _, rest) := takeDigits (digitValue c) 1 rest
      let dropped := rest.takeWhile Char.isDigit
      afterDigits negative significand dropped.length (rest.dropWhile Char.isDigit)
    else .error (.past .invalidNumber (c :: rest))

end SpriteScript.Json
